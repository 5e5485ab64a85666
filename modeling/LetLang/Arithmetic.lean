import LetLang.Value

/-! Operations on values.

Arithmetic is exact: a result that does not fit in 64 bits is an error. Division goes toward
zero. Truth values can only be compared for equality; no operation is defined on two values
of another kind, nor on values of two kinds. -/
namespace LetLang

/-- The 64-bit integer equal to `n`, if there is one. -/
def integer? (n : Int) : Option Int64 :=
  if Int64.minValue.toInt ≤ n ∧ n ≤ Int64.maxValue.toInt then some (Int64.ofInt n) else none

/-- A number as a value, or the given error if it does not fit. -/
def Value.ofInt (n : Int) (otherwise : RuntimeError) : Except RuntimeError Value :=
  match integer? n with
  | some k => .ok (.integer k)
  | none => .error otherwise

namespace UnaryOp

/-- The value of an operator at an operand. -/
def apply (op : UnaryOp) (v : Value) : Except RuntimeError Value :=
  match op, v with
  | .not, v => .ok (.boolean (!v.truthy))
  | .negate, .integer n => Value.ofInt (-n.toInt) (.negationOverflow n)
  | .negate, v => .error (.unknownUnaryOp .negate v.kind)

end UnaryOp

namespace BinaryOp

/-- The value of an operator at two integers. -/
def applyIntegers (op : BinaryOp) (l r : Int64) : Except RuntimeError Value :=
  match op with
  | .add => Value.ofInt (l.toInt + r.toInt) (.overflow l .add r)
  | .sub => Value.ofInt (l.toInt - r.toInt) (.overflow l .sub r)
  | .mul => Value.ofInt (l.toInt * r.toInt) (.overflow l .mul r)
  | .div =>
    if r = 0 then .error .divisionByZero
    else Value.ofInt (l.toInt.tdiv r.toInt) (.overflow l .div r)
  | .equal => .ok (.boolean (decide (l = r)))
  | .notEqual => .ok (.boolean (decide (l ≠ r)))
  | .less => .ok (.boolean (decide (l < r)))
  | .greater => .ok (.boolean (decide (r < l)))

/-- The value of an operator at two truth values. -/
def applyBooleans (op : BinaryOp) (l r : Bool) : Except RuntimeError Value :=
  match op with
  | .equal => .ok (.boolean (l == r))
  | .notEqual => .ok (.boolean (l != r))
  | op => .error (.unknownBinaryOp .boolean op .boolean)

/-- The value of an operator at two operands. -/
def apply (op : BinaryOp) (left right : Value) : Except RuntimeError Value :=
  match left, right with
  | .integer l, .integer r => op.applyIntegers l r
  | .boolean l, .boolean r => op.applyBooleans l r
  | left, right =>
    if left.kind = right.kind then .error (.unknownBinaryOp left.kind op right.kind)
    else .error (.typeMismatch left.kind op right.kind)

end BinaryOp

/-- The integer found for a number is that number. -/
theorem toInt_of_integer?_eq_some {n : Int} {k : Int64} (h : integer? n = some k) :
    k.toInt = n := by
  unfold integer? at h
  split at h
  · rename_i hn
    cases h
    rw [Int64.toInt_minValue, Int64.toInt_maxValue] at hn
    exact Int64.toInt_ofInt_of_le hn.1 (Int.lt_of_le_sub_one hn.2)
  · cases h

end LetLang
