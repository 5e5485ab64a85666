import Mathlib.Algebra.Group.Int.Defs
import LetLang.Evaluation

/-! Operations are exact.

An expression built from literals and operators alone has a value in the integers without bounds
and the truth values, which says nothing of words of 64 bits but for the one rule that a result
outside of them is a fault (`Formula.value`). Evaluation gives that value, or fails with that fault,
and the fault is that of the first operation to have one, operands before their operation and left
before right (`formulas_evaluate_exactly`). Neither the frame nor what a call does matters, and the
machine stays as it is.

One operation is compared with its exact counterpart at a time (`Agrees`); an expression then
follows its tree. -/
namespace LetLang

/-- A number of any size, or a truth value. -/
inductive Exact where
  | integer (n : Int)
  | boolean (b : Bool)
  deriving DecidableEq

/-- What an exact value is. -/
def Exact.kind : Exact → ValueKind
  | .integer _ => .integer
  | .boolean _ => .boolean

/-- Why an operation has no exact value that could be kept. -/
inductive Fault where
  | negationOverflow (n : Int)
  | overflow (left : Int) (op : BinaryOp) (right : Int)
  | divisionByZero
  | unknownUnaryOp (op : UnaryOp) (operand : ValueKind)
  | unknownBinaryOp (left : ValueKind) (op : BinaryOp) (right : ValueKind)
  | typeMismatch (left : ValueKind) (op : BinaryOp) (right : ValueKind)
  deriving DecidableEq

/-- A number, which must be one of 64 bits. -/
def Exact.bounded (n : Int) (otherwise : Fault) : Except Fault Exact :=
  if -2 ^ 63 ≤ n ∧ n ≤ 2 ^ 63 - 1 then .ok (.integer n) else .error otherwise

/-- The exact value of an operator at an operand. -/
def UnaryOp.exact : UnaryOp → Exact → Except Fault Exact
  | .not, .boolean b => .ok (.boolean (!b))
  | .not, .integer _ => .ok (.boolean false)
  | .negate, .integer n =>
    if n = -2 ^ 63 then .error (.negationOverflow n) else .ok (.integer (-n))
  | .negate, .boolean _ => .error (.unknownUnaryOp .negate .boolean)

/-- The exact value of an operator at two numbers. A quotient is cut off toward zero. -/
def BinaryOp.exactIntegers (op : BinaryOp) (l r : Int) : Except Fault Exact :=
  match op with
  | .add => Exact.bounded (l + r) (.overflow l .add r)
  | .sub => Exact.bounded (l - r) (.overflow l .sub r)
  | .mul => Exact.bounded (l * r) (.overflow l .mul r)
  | .div =>
    if r = 0 then .error .divisionByZero
    else if l = -2 ^ 63 ∧ r = -1 then .error (.overflow l .div r)
    else .ok (.integer (l.tdiv r))
  | .equal => .ok (.boolean (decide (l = r)))
  | .notEqual => .ok (.boolean (decide (l ≠ r)))
  | .less => .ok (.boolean (decide (l < r)))
  | .greater => .ok (.boolean (decide (l > r)))

/-- The exact value of an operator at two operands. -/
def BinaryOp.exact (op : BinaryOp) : Exact → Exact → Except Fault Exact
  | .integer l, .integer r => op.exactIntegers l r
  | .boolean l, .boolean r =>
    match op with
    | .equal => .ok (.boolean (decide (l = r)))
    | .notEqual => .ok (.boolean (decide (l ≠ r)))
    | op => .error (.unknownBinaryOp .boolean op .boolean)
  | left, right => .error (.typeMismatch left.kind op right.kind)

/-- Literals and operators. -/
inductive Formula where
  | literal (value : Exact)
  | unary (op : UnaryOp) (operand : Formula)
  | binary (left : Formula) (op : BinaryOp) (right : Formula)
  deriving DecidableEq

namespace Formula

/-- The exact value of a formula: operands from left to right, then the operation, up to the first
fault. -/
def value : Formula → Except Fault Exact
  | literal v => .ok v
  | unary op f => do
    let v ← f.value
    op.exact v
  | binary l op r => do
    let v ← l.value
    let w ← r.value
    op.exact v w

/-- The parts of a formula, itself included, every one behind its operands. -/
def postorder : Formula → List Formula
  | literal v => [literal v]
  | unary op f => f.postorder ++ [unary op f]
  | binary l op r => l.postorder ++ r.postorder ++ [binary l op r]

/-- The operation of a formula fails at the values of its operands. -/
def Faulty (g : Fault) : Formula → Prop
  | literal _ => False
  | unary op f => ∃ v, f.value = .ok v ∧ op.exact v = .error g
  | binary l op r => ∃ v w, l.value = .ok v ∧ r.value = .ok w ∧ op.exact v w = .error g

/-- Of several formulas the first whose operation fails does so with the fault `g`, and those before
it have values. -/
def FirstFault (g : Fault) (parts : List Formula) : Prop :=
  ∃ before part after, parts = before ++ part :: after ∧ part.Faulty g ∧
    ∀ k ∈ before, ∃ v, k.value = .ok v

end Formula

/-- The formula that an expression is, if only literals and operators stand in it. -/
def Expr.formula? : Expr → Option Formula
  | .integer _ n => some (.literal (.integer n.toInt))
  | .boolean _ b => some (.literal (.boolean b))
  | .unary _ op e => do
    let f ← e.formula?
    some (.unary op f)
  | .binary _ l op r => do
    let f ← l.formula?
    let g ← r.formula?
    some (.binary f op g)
  | _ => none

/-- The number or truth value that a value is. -/
def Value.exact? : Value → Option Exact
  | .integer n => some (.integer n.toInt)
  | .boolean b => some (.boolean b)
  | _ => none

/-- The fault of an operation that an error reports. -/
def RuntimeError.fault? : RuntimeError → Option Fault
  | .negationOverflow n => some (.negationOverflow n.toInt)
  | .overflow l op r => some (.overflow l.toInt op r.toInt)
  | .divisionByZero => some .divisionByZero
  | .unknownUnaryOp op k => some (.unknownUnaryOp op k)
  | .unknownBinaryOp k op k' => some (.unknownBinaryOp k op k')
  | .typeMismatch k op k' => some (.typeMismatch k op k')
  | _ => none

/-! ### One operation -/

/-- A result is the exact one: the same value, or the same fault. -/
def Agrees : Except Fault Exact → Except RuntimeError Value → Prop
  | .ok v, .ok w => w.exact? = some v
  | .error g, .error e => e.fault? = some g
  | _, _ => False

theorem integer?_eq (n : Int) :
    integer? n = if -2 ^ 63 ≤ n ∧ n ≤ 2 ^ 63 - 1 then some (Int64.ofInt n) else none := by
  rw [integer?, Int64.toInt_minValue, Int64.toInt_maxValue]

/-- A number is kept where it fits, and where it does not the fault is reported. -/
theorem Value.ofInt_agrees (n : Int) {g : Fault} {e : RuntimeError} (he : e.fault? = some g) :
    Agrees (Exact.bounded n g) (Value.ofInt n e) := by
  unfold Exact.bounded Value.ofInt
  split
  · rename_i hfits
    have hk : integer? n = some (Int64.ofInt n) := by rw [integer?_eq, if_pos hfits]
    rw [hk]
    exact congrArg (fun n => some (Exact.integer n)) (toInt_of_integer?_eq_some hk)
  · rename_i hfits
    have hk : integer? n = none := by rw [integer?_eq, if_neg hfits]
    rw [hk]
    exact he

/-- Only the least number has no opposite of 64 bits. -/
theorem Exact.bounded_neg (n : Int64) (g : Fault) :
    Exact.bounded (-n.toInt) g =
      if n.toInt = -2 ^ 63 then .error g else .ok (.integer (-n.toInt)) := by
  have hlow := n.le_toInt
  have hhigh := n.toInt_lt
  unfold Exact.bounded
  by_cases hn : n.toInt = -2 ^ 63
  · rw [if_pos hn, if_neg (by omega)]
  · rw [if_neg hn, if_pos (by omega)]

/-- Only the quotient of the least number and minus one does not fit in 64 bits. -/
theorem Exact.bounded_tdiv (l r : Int64) (hr : r.toInt ≠ 0) (g : Fault) :
    Exact.bounded (l.toInt.tdiv r.toInt) g =
      if l.toInt = -2 ^ 63 ∧ r.toInt = -1 then .error g
      else .ok (.integer (l.toInt.tdiv r.toInt)) := by
  have hlow := l.le_toInt
  have hhigh := l.toInt_lt
  unfold Exact.bounded
  by_cases hleast : l.toInt = -2 ^ 63 ∧ r.toInt = -1
  · have hquotient : (-2 ^ 63 : Int).tdiv (-1) = 2 ^ 63 := by decide
    rw [if_pos hleast, hleast.1, hleast.2, hquotient, if_neg (by omega)]
  · have habs := Int.natAbs_tdiv_le_natAbs l.toInt r.toInt
    have hne : l.toInt.tdiv r.toInt ≠ 2 ^ 63 := by
      intro hq
      have hdivision := Int.mul_tdiv_add_tmod l.toInt r.toInt
      have hrest : (l.toInt.tmod r.toInt).natAbs < r.toInt.natAbs :=
        Int.natAbs_tmod l.toInt r.toInt ▸ Nat.mod_lt _ (Int.natAbs_pos.mpr hr)
      rw [hq] at hdivision
      omega
    rw [if_neg hleast, if_pos (by omega)]

/-- Numbers and truth values are all that is exact. -/
theorem Value.exact?_cases {w : Value} {v : Exact} (h : w.exact? = some v) :
    (∃ n, w = .integer n ∧ v = .integer n.toInt) ∨ ∃ b, w = .boolean b ∧ v = .boolean b := by
  cases w with
  | integer n => exact .inl ⟨n, rfl, (Option.some.inj h).symm⟩
  | boolean b => exact .inr ⟨b, rfl, (Option.some.inj h).symm⟩
  | null => cases h
  | function f => cases h
  | error e => cases h

/-- An operator at an operand gives what it gives exactly. -/
theorem UnaryOp.apply_agrees (op : UnaryOp) {v : Exact} {w : Value} (hv : w.exact? = some v) :
    Agrees (op.exact v) (op.apply w) := by
  obtain ⟨n, rfl, rfl⟩ | ⟨b, rfl, rfl⟩ := Value.exact?_cases hv
  · cases op with
    | not => exact rfl
    | negate =>
      have hbounded := Value.ofInt_agrees (-n.toInt) (e := .negationOverflow n) rfl
      rw [Exact.bounded_neg] at hbounded
      exact hbounded
  · cases op <;> exact rfl

theorem agrees_boolean {p q : Prop} [Decidable p] [Decidable q] (h : q ↔ p) :
    Agrees (.ok (.boolean (decide p))) (.ok (.boolean (decide q))) :=
  congrArg (fun b => some (Exact.boolean b)) (decide_eq_decide.mpr h)

theorem BinaryOp.applyIntegers_agrees (op : BinaryOp) (l r : Int64) :
    Agrees (op.exactIntegers l.toInt r.toInt) (op.applyIntegers l r) := by
  cases op with
  | add => exact Value.ofInt_agrees _ rfl
  | sub => exact Value.ofInt_agrees _ rfl
  | mul => exact Value.ofInt_agrees _ rfl
  | div =>
    show Agrees (if r.toInt = 0 then _ else _) (if r = 0 then _ else _)
    by_cases hr : r = 0
    · have hzero : r.toInt = 0 := hr ▸ Int64.toInt_zero
      rw [if_pos hr, if_pos hzero]
      exact rfl
    · have hne : r.toInt ≠ 0 := fun h => hr (Int64.toInt_inj.mp (h.trans Int64.toInt_zero.symm))
      rw [if_neg hr, if_neg hne, ← Exact.bounded_tdiv l r hne]
      exact Value.ofInt_agrees _ rfl
  | equal => exact agrees_boolean Int64.toInt_inj.symm
  | notEqual => exact agrees_boolean (not_congr Int64.toInt_inj.symm)
  | less => exact agrees_boolean Int64.lt_iff_toInt_lt
  | greater => exact agrees_boolean Int64.lt_iff_toInt_lt

/-- An operator at two operands gives what it gives exactly. -/
theorem BinaryOp.apply_agrees (op : BinaryOp) {v v' : Exact} {w w' : Value}
    (hv : w.exact? = some v) (hv' : w'.exact? = some v') :
    Agrees (op.exact v v') (op.apply w w') := by
  obtain ⟨l, rfl, rfl⟩ | ⟨l, rfl, rfl⟩ := Value.exact?_cases hv <;>
    obtain ⟨r, rfl, rfl⟩ | ⟨r, rfl, rfl⟩ := Value.exact?_cases hv'
  · exact op.applyIntegers_agrees l r
  · exact rfl
  · exact rfl
  · cases op <;> cases l <;> cases r <;> exact rfl

/-! ### The whole expression -/

/-- Where the operands agree, so does what follows them. -/
theorem Agrees.bind {x : Except Fault Exact} {y : Except RuntimeError Value}
    {f : Exact → Except Fault Exact} {g : Value → Except RuntimeError Value} (h : Agrees x y)
    (hnext : ∀ v w, w.exact? = some v → Agrees (f v) (g w)) : Agrees (x >>= f) (y >>= g) := by
  cases x with
  | ok v =>
    cases y with
    | ok w => exact hnext v w h
    | error e => exact h.elim
  | error a =>
    cases y with
    | ok w => exact h.elim
    | error e => exact h

namespace Run

theorem ofExcept_bind {α β : Type} (x : Except RuntimeError α) (f : α → Except RuntimeError β) :
    (ofExcept x >>= fun a => ofExcept (f a)) = ofExcept (x >>= f) := by
  funext m
  cases x <;> rfl

end Run

variable (call : Calling) (frame : FrameId)

/-- Evaluating a formula is a result without any effect, and it is the exact one. -/
theorem Expr.eval_formula (e : Expr) (f : Formula) (h : e.formula? = some f) :
    ∃ x, e.eval call frame = Run.ofExcept x ∧ Agrees f.value x :=
  match e with
  | .integer _ n => by
    cases h
    exact ⟨.ok (.integer n), rfl, rfl⟩
  | .boolean _ b => by
    cases h
    exact ⟨.ok (.boolean b), rfl, rfl⟩
  | .unary _ op e => by
    obtain ⟨f', he, hf⟩ := Option.bind_eq_some_iff.mp h
    cases hf
    obtain ⟨x, heval, hx⟩ := e.eval_formula f' he
    refine ⟨x >>= op.apply, ?_, hx.bind fun _ _ hv => op.apply_agrees hv⟩
    rw [Expr.eval, heval, Run.ofExcept_bind]
  | .binary _ l op r => by
    obtain ⟨f, hl, hf⟩ := Option.bind_eq_some_iff.mp h
    obtain ⟨g, hr, hg⟩ := Option.bind_eq_some_iff.mp hf
    cases hg
    obtain ⟨x, hxeval, hx⟩ := l.eval_formula f hl
    obtain ⟨y, hyeval, hy⟩ := r.eval_formula g hr
    refine ⟨x >>= fun v => y >>= op.apply v, ?_,
      hx.bind fun _ _ hv => hy.bind fun _ _ hw => op.apply_agrees hv hw⟩
    rw [Expr.eval, hxeval, hyeval]
    simp only [Run.ofExcept_bind]
  | .identifier _ => nomatch h
  | .ifThen _ _ _ => nomatch h
  | .ifThenElse _ _ _ _ => nomatch h
  | .function _ _ _ => nomatch h
  | .call _ _ _ => nomatch h

namespace Formula

variable {g : Fault} {parts : List Formula}

/-- What comes first is first whatever follows, and behind formulas that have values. -/
theorem FirstFault.append (h : FirstFault g parts) (before after : List Formula)
    (hbefore : ∀ k ∈ before, ∃ v, k.value = .ok v) : FirstFault g (before ++ parts ++ after) := by
  obtain ⟨b, part, a, rfl, hfaulty, hb⟩ := h
  refine ⟨before ++ b, part, a ++ after, ?_, hfaulty, List.forall_mem_append.mpr ⟨hbefore, hb⟩⟩
  simp only [List.append_assoc, List.cons_append]

/-- What a result tells of the parts that it came from: all of them have values, or the fault is the
first. -/
def Tells (parts : List Formula) : Except Fault Exact → Prop
  | .ok _ => ∀ k ∈ parts, ∃ v, k.value = .ok v
  | .error g => FirstFault g parts

/-- Behind parts that have values, the operation of the formula decides. -/
theorem tells_last {f : Formula} (hparts : ∀ k ∈ parts, ∃ v, k.value = .ok v)
    (hfaulty : ∀ g, f.value = .error g → f.Faulty g) : Tells (parts ++ [f]) f.value := by
  cases hf : f.value with
  | ok v => exact List.forall_mem_append.mpr ⟨hparts, List.forall_mem_singleton.mpr ⟨v, hf⟩⟩
  | error g => exact ⟨parts, f, [], rfl, hfaulty g hf, hparts⟩

/-- The fault of a formula is the first one among its parts. -/
theorem tells_postorder (f : Formula) : Tells f.postorder f.value := by
  induction f with
  | literal v => exact tells_last (f := literal v) (List.forall_mem_nil _) nofun
  | unary op f ih =>
    cases hf : f.value with
    | ok v =>
      rw [hf] at ih
      have hvalue : (unary op f).value = op.exact v := by
        rw [value, hf]
        rfl
      exact tells_last ih fun g hg => ⟨v, hf, hvalue ▸ hg⟩
    | error g =>
      rw [hf] at ih
      rw [value, hf]
      exact ih.append [] _ (List.forall_mem_nil _)
  | binary l op r ihl ihr =>
    cases hl : l.value with
    | ok v =>
      rw [hl] at ihl
      cases hr : r.value with
      | ok w =>
        rw [hr] at ihr
        have hvalue : (binary l op r).value = op.exact v w := by
          rw [value, hl, hr]
          rfl
        exact tells_last (List.forall_mem_append.mpr ⟨ihl, ihr⟩) fun g hg =>
          ⟨v, w, hl, hr, hvalue ▸ hg⟩
      | error g =>
        rw [hr] at ihr
        rw [value, hl, hr]
        exact ihr.append _ _ ihl
    | error g =>
      rw [hl] at ihl
      rw [value, hl, postorder, List.append_assoc]
      exact ihl.append [] _ (List.forall_mem_nil _)

end Formula

/-- **Literals and operators evaluate as in exact arithmetic, up to the first fault.**

The expression has the exact value of its formula, or it fails with the fault of the first operation
that has one when operands come before their operation and left before right. In either case the
machine is as it was. -/
theorem formulas_evaluate_exactly (m : Machine) (e : Expr) (f : Formula)
    (h : e.formula? = some f) :
    match f.value with
    | .ok v => ∃ w, e.eval call frame m = .ok w m ∧ w.exact? = some v
    | .error g => Formula.FirstFault g f.postorder ∧
        ∃ err, e.eval call frame m = .error (.failed err) m ∧ err.fault? = some g := by
  obtain ⟨x, heval, hx⟩ := e.eval_formula call frame f h
  rw [heval]
  cases hf : f.value with
  | ok v =>
    rw [hf] at hx
    cases x with
    | ok w => exact ⟨w, rfl, hx⟩
    | error err => exact hx.elim
  | error g =>
    rw [hf] at hx
    cases x with
    | ok w => exact hx.elim
    | error err =>
      have hfirst := f.tells_postorder
      rw [hf] at hfirst
      exact ⟨hfirst, err, rfl, hx⟩

/-- In `least / -1 + 1 / 0` the quotient that does not fit comes before the division by zero. -/
theorem formulas_evaluate_exactly_least :
    let t : Token := ⟨.int, "", 1⟩
    let e : Expr := .binary t (.binary t (.integer t Int64.minValue) .div (.integer t (-1))) .add
      (.binary t (.integer t 1) .div (.integer t 0))
    let f : Formula :=
      .binary (.binary (.literal (.integer (-2 ^ 63))) .div (.literal (.integer (-1)))) .add
        (.binary (.literal (.integer 1)) .div (.literal (.integer 0)))
    let g : Fault := .overflow (-2 ^ 63) .div (-1)
    e.formula? = some f ∧ f.value = .error g ∧ Formula.FirstFault g f.postorder ∧
      ∃ err, e.eval (Closure.call 0) Store.rootFrame (.on .root) = .error (.failed err) (.on .root) ∧
        err.fault? = some g := by
  intro t e f g
  have hf : e.formula? = some f := by decide +kernel
  have hvalue : f.value = .error g := rfl
  have hexact := formulas_evaluate_exactly (Closure.call 0) Store.rootFrame (.on .root) e f hf
  rw [hvalue] at hexact
  exact ⟨hf, hvalue, hexact⟩

end LetLang
