import LetLang.Token

/-! Operators and how tightly they bind.

There are two operators written before their operand and eight written between two. Between
operands the lookahead decides: `TokenKind.precedence` says how tightly a token holds on to
what stands before it, and a token that continues nothing has the lowest precedence. -/
namespace LetLang

/-- An operator with one operand. -/
inductive UnaryOp where
  | not
  | negate
  deriving DecidableEq

/-- An operator with two operands. -/
inductive BinaryOp where
  | add
  | sub
  | mul
  | div
  | equal
  | notEqual
  | less
  | greater
  deriving DecidableEq

/-- How an operator is written. -/
def UnaryOp.symbol : UnaryOp → String
  | .not => "!"
  | .negate => "-"

/-- How an operator is written. -/
def BinaryOp.symbol : BinaryOp → String
  | .add => "+"
  | .sub => "-"
  | .mul => "*"
  | .div => "/"
  | .equal => "=="
  | .notEqual => "!="
  | .less => "<"
  | .greater => ">"

/-- The operator that a token is before an operand. -/
def TokenKind.unaryOp? : TokenKind → Option UnaryOp
  | .bang => some .not
  | .minus => some .negate
  | _ => none

/-- The operator that a token is between operands. -/
def TokenKind.binaryOp? : TokenKind → Option BinaryOp
  | .plus => some .add
  | .minus => some .sub
  | .asterisk => some .mul
  | .slash => some .div
  | .equal => some .equal
  | .notEqual => some .notEqual
  | .less => some .less
  | .greater => some .greater
  | _ => none

/-! ### Precedence -/

/-- How tightly an operator binds, from the weakest to the strongest. -/
inductive Precedence where
  | lowest
  | equality
  | comparison
  | sum
  | product
  | unary
  | call
  deriving DecidableEq

namespace Precedence

/-- The place of a precedence in the order. -/
def rank : Precedence → Nat
  | .lowest => 0
  | .equality => 1
  | .comparison => 2
  | .sum => 3
  | .product => 4
  | .unary => 5
  | .call => 6

instance : LT Precedence := ⟨fun p q => p.rank < q.rank⟩

instance (p q : Precedence) : Decidable (p < q) := inferInstanceAs (Decidable (p.rank < q.rank))

/-- The name of a precedence in the log. -/
def name : Precedence → String
  | .lowest => "Lowest"
  | .equality => "Equals"
  | .comparison => "LessGreater"
  | .sum => "Sum"
  | .product => "Product"
  | .unary => "Prefix"
  | .call => "Call"

end Precedence

/-- How tightly a token binds to the operand before it. -/
def TokenKind.precedence : TokenKind → Precedence
  | .equal | .notEqual => .equality
  | .less | .greater => .comparison
  | .plus | .minus => .sum
  | .asterisk | .slash => .product
  | .leftParen => .call
  | _ => .lowest

/-- A token that binds at all is an operator between operands or opens an argument list. -/
theorem TokenKind.precedence_eq_lowest_iff (k : TokenKind) :
    k.precedence = .lowest ↔ k.binaryOp? = none ∧ k ≠ .leftParen := by
  cases k <;> decide

end LetLang
