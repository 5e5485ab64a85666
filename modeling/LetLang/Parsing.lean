import LetLang.TokenStream
import LetLang.Parsing.Rules

/-! Reading a source text as a program.

The program holds the statements that could be read; it is what its author meant only if no
error is reported. -/
namespace LetLang

/-- A program as far as it could be read, and what was reported on the way. -/
structure Parsed where
  program : Program
  errors : List SyntaxError
  trace : List Entry

/-- Reads the tokens of a text. -/
def TokenStream.parse (s : TokenStream) : Parsed :=
  let step := Parsing.statements s.endLine s.tokens
  ⟨⟨step.node.getD []⟩, step.report.errors, step.report.trace⟩

/-- Reads a source text. -/
def parse (source : String) : Parsed := (TokenStream.ofSource source).parse

end LetLang
