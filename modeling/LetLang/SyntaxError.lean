import LetLang.Token

/-! What can be wrong with the form of a program.

There are three ways to go wrong: another token stands where one was required, a token that
starts no expression stands where one was required, or a number is too large. -/
namespace LetLang

/-- Why a statement could not be read, and the line of the offending token. -/
inductive SyntaxError where
  | unexpectedToken (expected found : TokenKind) (line : Nat)
  | noOperand (found : TokenKind) (line : Nat)
  | integerTooLarge (literal : String) (line : Nat)
  deriving DecidableEq

namespace SyntaxError

/-- The line of the offending token. -/
def line : SyntaxError → Nat
  | unexpectedToken _ _ line => line
  | noOperand _ line => line
  | integerTooLarge _ line => line

/-- The complaint itself, without the line. -/
def complaint : SyntaxError → String
  | unexpectedToken expected found _ =>
    "expected next token to be " ++ expected.name ++ ", got " ++ found.name ++ " instead"
  | noOperand found _ => "no prefix parse function for " ++ found.name ++ " found"
  | integerTooLarge literal _ => "could not parse " ++ literal ++ " as integer"

/-- The text shown to the author of the program. -/
def message (e : SyntaxError) : String := "line " ++ toString e.line ++ ": " ++ e.complaint

end SyntaxError

end LetLang
