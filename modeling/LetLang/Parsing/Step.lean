import LetLang.Trace

/-! One step of reading a program.

Reading from the front of a list of tokens gives a node, or none if something was wrong; the
tokens that are left; and a report of the errors found and the trace left. What is left is
always a suffix of what was given, and the type of a step says so: this is why the grammar's
rules, which call each other in circles, come to an end. -/
namespace LetLang.Parsing

/-! ### Reports -/

/-- What reading has to say besides the node. -/
structure Report where
  errors : List SyntaxError
  trace : List Entry

namespace Report

/-- Nothing to report. -/
def empty : Report := ⟨[], []⟩

/-- One report after another. -/
def append (r s : Report) : Report := ⟨r.errors ++ s.errors, r.trace ++ s.trace⟩

/-- An error is listed, and leaves an event. -/
def ofError (e : SyntaxError) : Report := ⟨[e], [.event (.syntaxError e)]⟩

/-- The same report from within a span. -/
def within (span : Span) (produced : Bool) (r : Report) : Report :=
  ⟨r.errors, .enter span :: (r.trace ++ [.leave span produced])⟩

end Report

/-! ### Steps -/

/-- What reading from the front of `tokens` gives. -/
structure Step (α : Type) (tokens : List Token) where
  node : Option α
  rest : List Token
  report : Report
  rest_suffix : rest <:+ tokens

namespace Step

variable {α β : Type} {tokens : List Token}

/-- No more tokens are left than were given. -/
theorem rest_length_le (s : Step α tokens) : s.rest.length ≤ tokens.length :=
  s.rest_suffix.length_le

/-- A node that takes no token. -/
def done (a : α) : Step α tokens := ⟨some a, tokens, .empty, List.suffix_refl _⟩

/-- An error that takes no token. -/
def fail (e : SyntaxError) : Step α tokens := ⟨none, tokens, .ofError e, List.suffix_refl _⟩

/-- The same step with one more token before it. -/
def past (t : Token) (s : Step α tokens) : Step α (t :: tokens) :=
  ⟨s.node, s.rest, s.report, s.rest_suffix.trans (List.suffix_cons ..)⟩

/-- One step after another; the second is not taken if the first gives no node. -/
def andThen (s : Step α tokens)
    (f : α → (rest : List Token) → rest.length ≤ tokens.length → Step β rest) : Step β tokens :=
  match s.node with
  | none => ⟨none, s.rest, s.report, s.rest_suffix⟩
  | some a =>
    let next := f a s.rest s.rest_length_le
    ⟨next.node, next.rest, s.report.append next.report, next.rest_suffix.trans s.rest_suffix⟩

/-- The same step with its node changed. -/
def map (f : α → β) (s : Step α tokens) : Step β tokens :=
  ⟨s.node.map f, s.rest, s.report, s.rest_suffix⟩

/-- A step and then a list; a step that gives no node adds nothing to the list. -/
def collect (s : Step α tokens)
    (f : (rest : List Token) → rest.length ≤ tokens.length → Step (List α) rest) :
    Step (List α) tokens :=
  let next := f s.rest s.rest_length_le
  ⟨next.node.map (s.node.toList ++ ·), next.rest, s.report.append next.report,
    next.rest_suffix.trans s.rest_suffix⟩

/-- The same step from within a span. -/
def within (span : Span) (s : Step α tokens) : Step α tokens :=
  ⟨s.node, s.rest, s.report.within span s.node.isSome, s.rest_suffix⟩

end Step

/-! ### Single tokens -/

/-- Takes the next token if it is of the required kind; otherwise takes nothing. -/
def expect (endLine : Nat) (kind : TokenKind) : (tokens : List Token) → Step Token tokens
  | [] => .fail (.unexpectedToken kind .endOfInput endLine)
  | t :: _ =>
    if t.kind = kind then .past t (.done t)
    else .fail (.unexpectedToken kind t.kind t.line)

/-- Is the next token of this kind? -/
def nextIs (kind : TokenKind) : List Token → Bool
  | [] => false
  | t :: _ => t.kind == kind

/-- Takes a semicolon if there is one. -/
def optionalSemicolon {α : Type} (a : α) : (tokens : List Token) → Step α tokens
  | [] => .done a
  | t :: _ => if t.kind = .semicolon then .past t (.done a) else .done a

/-! ### Recovery -/

/-- Where reading goes on after a malformed statement: behind its semicolon, or in front of
the brace or the end that closes the list it stands in. -/
def recover : List Token → List Token
  | [] => []
  | t :: ts =>
    if t.kind = .rightBrace then t :: ts
    else if t.kind = .semicolon then ts
    else recover ts

theorem recover_suffix (tokens : List Token) : recover tokens <:+ tokens := by
  induction tokens with
  | nil => exact List.suffix_refl _
  | cons t ts ih =>
    unfold recover
    split
    · exact List.suffix_refl _
    split
    · exact List.suffix_cons ..
    · exact ih.trans (List.suffix_cons ..)

/-- The same step, skipping the rest of the statement if it gives no node. -/
def Step.recovering {α : Type} {tokens : List Token} (s : Step α tokens) : Step α tokens :=
  match s.node with
  | some _ => s
  | none => ⟨none, recover s.rest, s.report, (recover_suffix _).trans s.rest_suffix⟩

end LetLang.Parsing
