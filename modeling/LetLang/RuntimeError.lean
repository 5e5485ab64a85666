import LetLang.Operator

/-! What can go wrong while a program runs.

Errors about operands name the kinds of the values involved, never the values, except for
overflow, which shows the operation that does not fit. -/
namespace LetLang

/-- What a value is. -/
inductive ValueKind where
  | integer
  | boolean
  | null
  | function
  | error
  deriving DecidableEq

/-- The name of a kind in messages. -/
def ValueKind.name : ValueKind → String
  | .integer => "Integer"
  | .boolean => "Boolean"
  | .null => "Null"
  | .function => "Function"
  | .error => "Error"

/-- Why a program could not go on. -/
inductive RuntimeError where
  | unknownIdentifier (name : String)
  | unknownUnaryOp (op : UnaryOp) (operand : ValueKind)
  | unknownBinaryOp (left : ValueKind) (op : BinaryOp) (right : ValueKind)
  | typeMismatch (left : ValueKind) (op : BinaryOp) (right : ValueKind)
  | divisionByZero
  | overflow (left : Int64) (op : BinaryOp) (right : Int64)
  | negationOverflow (value : Int64)
  | notAFunction (found : ValueKind)
  | argumentCount (expected found : Nat)
  deriving DecidableEq

/-- An operation as messages show it. -/
def BinaryOp.between (op : BinaryOp) (left right : String) : String :=
  left ++ " " ++ op.symbol ++ " " ++ right

/-- The text shown to the author of the program. -/
def RuntimeError.message : RuntimeError → String
  | .unknownIdentifier name => "identifier not found: " ++ name
  | .unknownUnaryOp op operand => "unknown operator: " ++ op.symbol ++ operand.name
  | .unknownBinaryOp left op right => "unknown operator: " ++ op.between left.name right.name
  | .typeMismatch left op right => "type mismatch: " ++ op.between left.name right.name
  | .divisionByZero => "division by zero"
  | .overflow left op right =>
    "integer overflow: " ++ op.between (toString left.toInt) (toString right.toInt)
  | .negationOverflow value => "integer overflow: -(" ++ toString value.toInt ++ ")"
  | .notAFunction found => "not a function: " ++ found.name
  | .argumentCount expected found =>
    "wrong number of arguments: want=" ++ toString expected ++ ", got=" ++ toString found

end LetLang
