import LetLang.Lexeme

/-! The tokens of a source text.

Lexemes get their lines, counted by the line ends before them, and layout is dropped. What
is left is a list of tokens together with the line on which the text ends, where a reader
that asks for more finds the end of the input again and again. -/
namespace LetLang

/-- The tokens of a text, and the line on which the text ends. -/
structure TokenStream where
  tokens : List Token
  endLine : Nat

namespace TokenStream

/-- The tokens among `lexemes`, the first of which stands on `line`. -/
def ofLexemes (line : Nat) : List Lexeme → TokenStream
  | [] => ⟨[], line⟩
  | l :: ls =>
    if l.kind = .newline then ofLexemes (line + 1) ls
    else if l.kind.isLayout then ofLexemes line ls
    else
      let rest := ofLexemes line ls
      ⟨⟨l.kind, String.ofList l.text, line⟩ :: rest.tokens, rest.endLine⟩

/-- The tokens of a source text, whose first line is line 1. -/
def ofSource (source : String) : TokenStream := ofLexemes 1 (Lexeme.split source.toList)

/-- The next token and the stream after it; at its end a stream stays where it is. -/
def next (s : TokenStream) : Token × TokenStream :=
  match s.tokens with
  | [] => (.endOfInput s.endLine, s)
  | t :: ts => (t, ⟨ts, s.endLine⟩)

end TokenStream

end LetLang
