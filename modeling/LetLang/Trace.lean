import LetLang.Syntax.Printer
import LetLang.SyntaxError

/-! What an observer of a run sees.

A run leaves a sequence of entries: parsing opens and closes a span around every statement
and every expression it tries to read, and both parsing and evaluation record events. A span
carries the tokens that lie ahead where it begins, so that its place in the text is the
length of that list, and its closing entry carries whether a node came out of it. -/
namespace LetLang

/-- How much detail an entry belongs to. -/
inductive Level where
  | error
  | warn
  | info
  | debug
  | trace
  deriving DecidableEq

/-- The name of a level. -/
def Level.name : Level → String
  | .error => "ERROR"
  | .warn => "WARN"
  | .info => "INFO"
  | .debug => "DEBUG"
  | .trace => "TRACE"

/-- A stretch of parsing, with the tokens ahead of it. -/
inductive Span where
  | statement (first : Token) (rest : List Token)
  | expression (precedence : Precedence) (ahead : List Token)

/-- Something that happened at one moment. -/
inductive Event where
  | syntaxError (error : SyntaxError)
  | evaluating (statement : Statement)
  | calling (arity : Nat)
  | lineRejected (count : Nat)

/-- One entry of a trace. -/
inductive Entry where
  | enter (span : Span)
  | leave (span : Span) (produced : Bool)
  | event (event : Event)

/-- What a field holds: a number that was counted, or a text. -/
inductive FieldValue where
  | number (n : Nat)
  | text (s : String)
  deriving DecidableEq

/-- A number is written in decimal digits, a text as it is. -/
def FieldValue.render : FieldValue → String
  | number n => toString n
  | text s => s

/-- A value under a name. -/
structure Field where
  name : String
  value : FieldValue

namespace Field

/-- A field is written `name=value`. -/
def render (f : Field) : String := f.name ++ "=" ++ f.value.render

/-- Fields are separated by spaces. -/
def renderAll (fields : List Field) : String := " ".intercalate (fields.map render)

end Field

namespace Span

/-- The name of a span in the log. -/
def name : Span → String
  | statement _ _ => "parse_statement"
  | expression _ _ => "parse_expression"

/-- The part of the program a span belongs to. -/
def target : Span → String
  | statement _ _ => "quill::interpreter::parser::statement"
  | expression _ _ => "quill::interpreter::parser::core"

/-- The text of the token where an expression is read, empty at the end of the input. -/
def headLiteral : List Token → String
  | [] => ""
  | t :: _ => t.literal

/-- What the log shows of a span. -/
def fields : Span → List Field
  | statement t _ => [⟨"token", .text t.literal⟩, ⟨"line", .number t.line⟩]
  | expression p ahead => [⟨"precedence", .text p.name⟩, ⟨"token", .text (headLiteral ahead)⟩]

end Span

namespace Event

/-- The level of an event. -/
def level : Event → Level
  | evaluating _ => .trace
  | _ => .debug

/-- The part of the program an event belongs to. -/
def target : Event → String
  | syntaxError _ => "quill::interpreter::parser::core"
  | evaluating _ => "quill::interpreter::evaluator::core"
  | calling _ => "quill::interpreter::evaluator::function"
  | lineRejected _ => "quill::repl"

/-- What happened, in words. -/
def message : Event → String
  | syntaxError _ => "syntax error"
  | evaluating _ => "eval statement"
  | calling _ => "calling function"
  | lineRejected _ => "line rejected"

/-- What the log shows of an event. -/
def fields : Event → List Field
  | syntaxError e => [⟨"error", .text e.message⟩]
  | evaluating s => [⟨"line", .number s.token.line⟩, ⟨"statement", .text s.render⟩]
  | calling n => [⟨"arity", .number n⟩]
  | lineRejected n => [⟨"count", .number n⟩]

/-- An event's words followed by its fields. -/
def summary (e : Event) : String := e.message ++ " " ++ Field.renderAll e.fields

end Event

end LetLang
