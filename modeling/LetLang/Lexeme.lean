import LetLang.Token

/-! Cutting a source text into lexemes.

A lexeme is a piece of the text with its kind, layout included, so that the texts of all
lexemes together are the source. `first` takes the longest lexeme off the front: a run of
blanks, of digits or of word characters goes on as far as it can, a comment runs up to the
end of its line, and `==` and `!=` are preferred over their first character. A character
that starts nothing is a lexeme of its own, of kind `illegal`. -/
namespace LetLang

/-- A piece of source text and its kind. -/
structure Lexeme where
  kind : TokenKind
  text : List Char
  deriving DecidableEq

namespace Lexeme

/-! ### Character classes -/

/-- Layout within a line: space, tab, carriage return and form feed. -/
def isBlank (c : Char) : Bool := c == ' ' || c == '\t' || c == '\r' || c == '\x0c'

/-- A letter of the ASCII alphabet or an underscore. -/
def startsWord (c : Char) : Bool := c.isAlpha || c == '_'

/-- A character that may start a word, or an ASCII digit. -/
def continuesWord (c : Char) : Bool := c.isAlphanum || c == '_'

/-- A comment runs up to the next line feed or carriage return. -/
def continuesComment (c : Char) : Bool := c != '\n' && c != '\r'

/-! ### Kinds -/

/-- The reserved words. -/
def keywords : List (String × TokenKind) :=
  [("true", .trueWord), ("false", .falseWord), ("let", .letWord), ("return", .returnWord),
    ("if", .ifWord), ("else", .elseWord), ("fn", .fnWord)]

/-- A word is a keyword only as a whole, and otherwise an identifier. -/
def wordKind (word : List Char) : TokenKind :=
  (keywords.lookup (String.ofList word)).getD .identifier

/-- The kind of a character that stands alone. -/
def symbolKind : Char → TokenKind
  | '\n' => .newline
  | '=' => .assign
  | '+' => .plus
  | '-' => .minus
  | '*' => .asterisk
  | '/' => .slash
  | '!' => .bang
  | '<' => .less
  | '>' => .greater
  | ',' => .comma
  | ';' => .semicolon
  | '(' => .leftParen
  | ')' => .rightParen
  | '{' => .leftBrace
  | '}' => .rightBrace
  | _ => .illegal

/-! ### Taking lexemes off the front -/

/-- The lexeme that `c` starts and `p` continues, and the text after it. -/
def run (kind : List Char → TokenKind) (p : Char → Bool) (c : Char) (cs : List Char) :
    Lexeme × List Char :=
  (⟨kind (c :: cs.takeWhile p), c :: cs.takeWhile p⟩, cs.dropWhile p)

/-- A lexeme that does not start a run: a comment, a two-character operator or one symbol. -/
def mark : Char → List Char → Lexeme × List Char
  | '/', '/' :: cs => run (fun _ => .comment) continuesComment '/' ('/' :: cs)
  | '=', '=' :: cs => (⟨.equal, ['=', '=']⟩, cs)
  | '!', '=' :: cs => (⟨.notEqual, ['!', '=']⟩, cs)
  | c, cs => (⟨symbolKind c, [c]⟩, cs)

/-- The longest lexeme at the front of `c :: cs`, and the text after it. -/
def first (c : Char) (cs : List Char) : Lexeme × List Char :=
  if isBlank c then run (fun _ => .blank) isBlank c cs
  else if c.isDigit then run (fun _ => .int) Char.isDigit c cs
  else if startsWord c then run wordKind continuesWord c cs
  else mark c cs

theorem run_append (kind : List Char → TokenKind) (p : Char → Bool) (c : Char) (cs : List Char) :
    (run kind p c cs).1.text ++ (run kind p c cs).2 = c :: cs := by
  simp [run, List.takeWhile_append_dropWhile]

theorem mark_append (c : Char) (cs : List Char) :
    (mark c cs).1.text ++ (mark c cs).2 = c :: cs := by
  unfold mark
  split
  · exact run_append ..
  all_goals rfl

/-- Nothing is lost: the lexeme and the text after it make up the text. -/
theorem first_append (c : Char) (cs : List Char) :
    (first c cs).1.text ++ (first c cs).2 = c :: cs := by
  unfold first
  split
  · exact run_append ..
  split
  · exact run_append ..
  split
  · exact run_append ..
  · exact mark_append ..

theorem mark_text_ne_nil (c : Char) (cs : List Char) : (mark c cs).1.text ≠ [] := by
  unfold mark
  split <;> simp [run]

/-- A lexeme is never empty. -/
theorem first_text_ne_nil (c : Char) (cs : List Char) : (first c cs).1.text ≠ [] := by
  unfold first
  split
  · simp [run]
  split
  · simp [run]
  split
  · simp [run]
  · exact mark_text_ne_nil c cs

theorem length_first_rest (c : Char) (cs : List Char) : (first c cs).2.length ≤ cs.length := by
  have h := congrArg List.length (first_append c cs)
  have hne := List.length_pos_iff.mpr (first_text_ne_nil c cs)
  simp only [List.length_append, List.length_cons] at h
  omega

/-- All lexemes of a text, in order. -/
def split : List Char → List Lexeme
  | [] => []
  | c :: cs => (first c cs).1 :: split (first c cs).2
termination_by cs => cs.length
decreasing_by exact Nat.lt_succ_of_le (length_first_rest c cs)

/-- The lexemes of a text put together are the text. -/
theorem flatMap_text_split (cs : List Char) : (split cs).flatMap text = cs := by
  fun_induction split cs with
  | case1 => rfl
  | case2 c cs ih => rw [List.flatMap_cons, ih, first_append]

end Lexeme

end LetLang
