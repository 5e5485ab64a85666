import LetLang.Proofs.Judgements
import LetLang.Proofs.Likeness
import LetLang.Proofs.Runs

/-! Evaluation in stores that are alike.

Code that is the same up to what an erasure forgets, run in paired frames of stores that are alike,
ends in the same way on both sides: with like values, with a `return` of like values, with the same
error, or because calls are nested too deeply. The stores are alike again, along a pairing that has
grown by frames that are new on both sides (`Run.Simulates`).

The proof goes once over the tree, for whatever calls do if they simulate each other, and then
over the depth (`Closure.call_simulates`). -/
namespace LetLang

variable {v : Erasure} {R R' : Pairing} {α β : Type}

/-- Runs were interrupted for the same reason. -/
inductive Interrupt.Alike (v : Erasure) (R : Pairing) : Interrupt → Interrupt → Prop where
  | returned {x y : Value} (h : x.Alike v R y) : Alike v R (.returned x) (.returned y)
  | failed (e : RuntimeError) : Alike v R (.failed e) (.failed e)
  | exhausted : Alike v R .exhausted .exhausted

namespace Run

/-- Runs from the stores `s` and `s'` ended in the same way, and the stores that are left are alike
along a pairing that has grown from `R`. -/
inductive Agree (v : Erasure) (R : Pairing) (s s' : Store) (A : Pairing → α → α → Prop) :
    EStateM.Result Interrupt Machine α → EStateM.Result Interrupt Machine α → Prop where
  | ok {R' : Pairing} {a a' : α} {m m' : Machine} (hR : R.Grows R' s s' m.store m'.store)
      (hm : m.store.Alike v R' m'.store) (ha : A R' a a') : Agree v R s s' A (.ok a m) (.ok a' m')
  | error {R' : Pairing} {i i' : Interrupt} {m m' : Machine}
      (hR : R.Grows R' s s' m.store m'.store) (hm : m.store.Alike v R' m'.store)
      (hi : i.Alike v R' i') : Agree v R s s' A (.error i m) (.error i' m')

/-- From stores that are alike along `R`, the runs agree. -/
def Simulates (v : Erasure) (R : Pairing) (A : Pairing → α → α → Prop) (r r' : Run α) : Prop :=
  ∀ m m', m.store.Alike v R m'.store → Agree v R m.store m'.store A (r m) (r' m')

variable {A : Pairing → α → α → Prop} {B : Pairing → β → β → Prop}

/-- What agrees from later stores on agrees from the earlier ones on. -/
theorem Agree.after {s s' t t' : Store} {x x' : EStateM.Result Interrupt Machine α}
    (h : Agree v R' t t' A x x') (hR : R.Grows R' s s' t t') : Agree v R s s' A x x' := by
  cases h with
  | ok hR' hm ha => exact .ok (hR.trans hR') hm ha
  | error hR' hm hi => exact .error (hR.trans hR') hm hi

theorem simulates_pure {a a' : α} (h : A R a a') : Simulates v R A (pure a) (pure a') :=
  fun _ _ hm => .ok (.refl R _ _) hm h

theorem simulates_throw {i i' : Interrupt} (h : i.Alike v R i') :
    Simulates v R A (throw i) (throw i') :=
  fun _ _ hm => .error (.refl R _ _) hm h

theorem simulates_fail (e : RuntimeError) : Simulates v R A (fail e) (fail e) :=
  simulates_throw (.failed e)

/-- What comes after is alike along the pairing that has grown by then. -/
theorem Simulates.bind {r r' : Run α} {f f' : α → Run β} (hr : Simulates v R A r r')
    (hf : ∀ R', R ≤ R' → ∀ a a', A R' a a' → Simulates v R' B (f a) (f' a')) :
    Simulates v R B (r >>= f) (r' >>= f') := by
  intro m m' hm
  have hagree := hr m m' hm
  rw [bind_apply, bind_apply]
  revert hagree
  generalize r m = x, r' m' = x'
  intro hagree
  cases hagree with
  | @ok _ a a' m m' hR hm ha => exact (hf _ hR.le a a' ha m m' hm).after hR
  | error hR hm hi => exact .error hR hm hi

theorem simulates_record (e e' : Event) :
    Simulates v R (fun _ _ _ => True) (record e) (record e') :=
  fun _ _ hm => .ok (.refl R _ _) hm trivial

theorem simulates_lookup {i j : FrameId} (hij : R.rel i j) (name : String) :
    Simulates v R (Value.Alike v) (lookup i name) (lookup j name) := by
  intro m m' hm
  rw [lookup_apply, lookup_apply]
  match m.store.lookup i name, m'.store.lookup j name, hm.lookup i j hij name with
  | some x, some y, hxy => exact .ok (.refl R _ _) hm (Option.rel_some_some.mp hxy)
  | none, none, _ => exact .error (.refl R _ _) hm (.failed _)

theorem simulates_define {i j : FrameId} (hij : R.rel i j) (name : String) {x y : Value}
    (hxy : x.Alike v R y) :
    Simulates v R (fun _ _ _ => True) (define i name x) (define j name y) :=
  fun _ _ hm => .ok (.of_size_eq R (Store.size_define ..) (Store.size_define ..))
    (hm.define hij hxy name) trivial

theorem simulates_newFunction {i j : FrameId} (hij : R.rel i j) {ps qs : List Identifier}
    {b c : Block} (hps : ps.map (Identifier.erase v) = qs.map (Identifier.erase v))
    (hb : b.erase v = c.erase v) :
    Simulates v R (Value.Alike v) (newFunction ps b i) (newFunction qs c j) :=
  fun _ _ hm => .ok (.of_size_eq R rfl rfl) ⟨hm.frames, hm.around, hm.aligned⟩
    (.function ⟨hps, hb, hij⟩)

/-- The frames of calls that are alike are paired. -/
theorem simulates_newFrame {f g : Closure} (h : f.Alike v R g) {xs ys : List Value}
    (hxs : List.Forall₂ (Value.Alike v R) xs ys) :
    Simulates v R (fun R' i j => R'.rel i j) (newFrame (.ofCall f xs)) (newFrame (.ofCall g ys)) :=
  fun _ _ hm => .ok (Pairing.grows_next hm _ _)
    (hm.push (Frame.alike_ofCall h hxs) (Frame.outer_ofCall f xs) (Frame.outer_ofCall g ys) h.frame)
    hm.next_rel

theorem Simulates.catchReturn {r r' : Run Value} (h : Simulates v R (Value.Alike v) r r') :
    Simulates v R (Value.Alike v) (catchReturn r) (catchReturn r') := by
  intro m m' hm
  have hagree := h m m' hm
  rw [catchReturn_apply, catchReturn_apply]
  revert hagree
  generalize r m = x, r' m' = x'
  intro hagree
  cases hagree with
  | ok hR hm ha => exact .ok hR hm ha
  | error hR hm hi =>
    cases hi with
    | returned hx => exact .ok hR hm hx
    | failed e => exact .error hR hm (.failed e)
    | exhausted => exact .error hR hm .exhausted

end Run

/-! ### Operators -/

/-- Operators do not tell values apart that are alike. -/
theorem UnaryOp.apply_eq (op : UnaryOp) {x y : Value} (h : x.Alike v R y) :
    op.apply x = op.apply y := by
  cases h with
  | function h => cases op <;> rfl
  | _ => rfl

theorem BinaryOp.apply_eq (op : BinaryOp) {x y x' y' : Value} (h : x.Alike v R x')
    (h' : y.Alike v R y') : op.apply x y = op.apply x' y' := by
  cases h <;> cases h' <;> rfl

theorem Value.IsPlain.alike {x : Value} (h : x.IsPlain) : x.Alike v R x := by
  cases x with
  | integer n => exact .integer n
  | boolean b => exact .boolean b
  | _ => exact h.elim

/-- An operation whose values are plain. -/
theorem Run.simulates_ofExcept {x : Except RuntimeError Value}
    (h : ∀ y, x = .ok y → y.IsPlain) :
    Simulates v R (Value.Alike v) (ofExcept x) (ofExcept x) := by
  cases x with
  | ok y => exact simulates_pure (h y rfl).alike
  | error e => exact simulates_fail e

/-! ### Evaluation -/

/-- Calls of like functions on like arguments simulate each other. -/
def Calling.Simulates (v : Erasure) (call call' : Calling) : Prop :=
  ∀ (R : Pairing) (f g : Closure) (xs ys : List Value), f.Alike v R g →
    List.Forall₂ (Value.Alike v R) xs ys →
    Run.Simulates v R (Value.Alike v) (call f xs) (call' g ys)

section
variable {call call' : Calling} {i j : FrameId}
open Run

mutual

theorem Expr.eval_simulates (hcall : Calling.Simulates v call call') (R : Pairing)
    (hij : R.rel i j) (e e' : Expr) (he : e.erase v = e'.erase v) :
    Run.Simulates v R (Value.Alike v) (e.eval call i) (e'.eval call' j) := by
  match e with
  | .identifier n =>
    cases e' with
    | identifier n' =>
      simp only [Expr.erase, Identifier.erase, Expr.identifier.injEq, Identifier.mk.injEq] at he
      rw [Expr.eval, Expr.eval, he.2]
      exact simulates_lookup hij n'.name
    | _ => simp only [Expr.erase, reduceCtorEq] at he
  | .integer _ n =>
    cases e' with
    | integer _ n' =>
      simp only [Expr.erase, Expr.integer.injEq] at he
      rw [Expr.eval, Expr.eval, he.2]
      exact simulates_pure (.integer n')
    | _ => simp only [Expr.erase, reduceCtorEq] at he
  | .boolean _ b =>
    cases e' with
    | boolean _ b' =>
      simp only [Expr.erase, Expr.boolean.injEq] at he
      rw [Expr.eval, Expr.eval, he.2]
      exact simulates_pure (.boolean b')
    | _ => simp only [Expr.erase, reduceCtorEq] at he
  | .unary _ op e =>
    cases e' with
    | unary _ op' e' =>
      simp only [Expr.erase, Expr.unary.injEq] at he
      obtain ⟨_, rfl, he⟩ := he
      rw [Expr.eval, Expr.eval]
      refine (Expr.eval_simulates hcall R hij e e' he).bind fun R' hR x y hxy => ?_
      rw [op.apply_eq hxy]
      exact simulates_ofExcept fun _ h => UnaryOp.apply_isPlain h
    | _ => simp only [Expr.erase, reduceCtorEq] at he
  | .binary _ l op r =>
    cases e' with
    | binary _ l' op' r' =>
      simp only [Expr.erase, Expr.binary.injEq] at he
      obtain ⟨_, hl, rfl, hr⟩ := he
      rw [Expr.eval, Expr.eval]
      refine (Expr.eval_simulates hcall R hij l l' hl).bind fun R₁ hR₁ x y hxy => ?_
      refine (Expr.eval_simulates hcall R₁ (hR₁ i j hij) r r' hr).bind fun R₂ hR₂ x' y' hxy' => ?_
      rw [op.apply_eq (hxy.mono hR₂) hxy']
      exact simulates_ofExcept fun _ h => BinaryOp.apply_isPlain h
    | _ => simp only [Expr.erase, reduceCtorEq] at he
  | .ifThen _ c b =>
    cases e' with
    | ifThen _ c' b' =>
      simp only [Expr.erase, Expr.ifThen.injEq] at he
      rw [Expr.eval, Expr.eval]
      refine (Expr.eval_simulates hcall R hij c c' he.2.1).bind fun R₁ hR₁ x y hxy => ?_
      rw [hxy.truthy_eq]
      split
      · exact Block.eval_simulates hcall R₁ (hR₁ i j hij) b b' he.2.2
      · exact simulates_pure .null
    | _ => simp only [Expr.erase, reduceCtorEq] at he
  | .ifThenElse _ c b a =>
    cases e' with
    | ifThenElse _ c' b' a' =>
      simp only [Expr.erase, Expr.ifThenElse.injEq] at he
      rw [Expr.eval, Expr.eval]
      refine (Expr.eval_simulates hcall R hij c c' he.2.1).bind fun R₁ hR₁ x y hxy => ?_
      rw [hxy.truthy_eq]
      split
      · exact Block.eval_simulates hcall R₁ (hR₁ i j hij) b b' he.2.2.1
      · exact Block.eval_simulates hcall R₁ (hR₁ i j hij) a a' he.2.2.2
    | _ => simp only [Expr.erase, reduceCtorEq] at he
  | .function _ ps b =>
    cases e' with
    | function _ qs b' =>
      simp only [Expr.erase, Expr.function.injEq] at he
      rw [Expr.eval, Expr.eval]
      exact simulates_newFunction hij he.2.1 he.2.2
    | _ => simp only [Expr.erase, reduceCtorEq] at he
  | .call _ f es =>
    cases e' with
    | call _ f' es' =>
      simp only [Expr.erase, Expr.call.injEq] at he
      rw [Expr.eval, Expr.eval]
      refine (Expr.eval_simulates hcall R hij f f' he.2.1).bind fun R₁ hR₁ x y hxy => ?_
      have harguments := Expr.evalAll_simulates hcall R₁ (hR₁ i j hij) es es' he.2.2
      cases hxy with
      | function hg =>
        refine harguments.bind fun R₂ hR₂ xs ys hxs => ?_
        exact hcall R₂ _ _ xs ys (hg.mono hR₂) hxs
      | _ => exact simulates_fail _
    | _ => simp only [Expr.erase, reduceCtorEq] at he

theorem Expr.evalAll_simulates (hcall : Calling.Simulates v call call') (R : Pairing)
    (hij : R.rel i j) (es es' : List Expr) (hes : Expr.eraseAll v es = Expr.eraseAll v es') :
    Run.Simulates v R (fun R' => List.Forall₂ (Value.Alike v R'))
      (Expr.evalAll call i es) (Expr.evalAll call' j es') := by
  match es with
  | [] =>
    cases es' with
    | nil =>
      rw [Expr.evalAll, Expr.evalAll]
      exact simulates_pure .nil
    | cons e' es' => simp only [Expr.eraseAll, reduceCtorEq] at hes
  | e :: es =>
    cases es' with
    | nil => simp only [Expr.eraseAll, reduceCtorEq] at hes
    | cons e' es' =>
      simp only [Expr.eraseAll, List.cons.injEq] at hes
      rw [Expr.evalAll, Expr.evalAll]
      refine (Expr.eval_simulates hcall R hij e e' hes.1).bind fun R₁ hR₁ x y hxy => ?_
      refine (Expr.evalAll_simulates hcall R₁ (hR₁ i j hij) es es' hes.2).bind
        fun R₂ hR₂ xs ys hxs => ?_
      exact simulates_pure (.cons (hxy.mono hR₂) hxs)

theorem Block.eval_simulates (hcall : Calling.Simulates v call call') (R : Pairing)
    (hij : R.rel i j) (b b' : Block) (hb : b.erase v = b'.erase v) :
    Run.Simulates v R (Value.Alike v) (b.eval call i) (b'.eval call' j) := by
  match b, b' with
  | .mk _ ss, .mk _ ss' =>
    simp only [Block.erase, Block.mk.injEq] at hb
    rw [Block.eval, Block.eval]
    exact Statement.evalAll_simulates hcall R hij ss ss' hb.2 .null

theorem Statement.eval_simulates (hcall : Calling.Simulates v call call') (R : Pairing)
    (hij : R.rel i j) (s s' : Statement) (hs : s.erase v = s'.erase v) :
    Run.Simulates v R (Value.Alike v) (s.eval call i) (s'.eval call' j) := by
  rw [Statement.eval.eq_def, Statement.eval.eq_def]
  refine (simulates_record _ _).bind fun R₁ hR₁ _ _ _ => ?_
  have hij := hR₁ i j hij
  match s with
  | .letIn _ n e =>
    cases s' with
    | letIn _ n' e' =>
      simp only [Statement.erase, Identifier.erase, Statement.letIn.injEq,
        Identifier.mk.injEq] at hs
      simp only [hs.2.1.2]
      refine (Expr.eval_simulates hcall R₁ hij e e' hs.2.2).bind fun R₂ hR₂ x y hxy => ?_
      refine (simulates_define (hR₂ i j hij) n'.name hxy).bind fun R₃ hR₃ _ _ _ => ?_
      exact simulates_pure (hxy.mono hR₃)
    | _ => simp only [Statement.erase, reduceCtorEq] at hs
  | .returnNothing _ =>
    cases s' with
    | returnNothing _ => exact simulates_throw (.returned .null)
    | _ => simp only [Statement.erase, reduceCtorEq] at hs
  | .returnValue _ e =>
    cases s' with
    | returnValue _ e' =>
      simp only [Statement.erase, Statement.returnValue.injEq] at hs
      refine (Expr.eval_simulates hcall R₁ hij e e' hs.2).bind fun R₂ hR₂ x y hxy => ?_
      exact simulates_throw (.returned hxy)
    | _ => simp only [Statement.erase, reduceCtorEq] at hs
  | .expression _ e =>
    cases s' with
    | expression _ e' =>
      simp only [Statement.erase, Statement.expression.injEq] at hs
      exact Expr.eval_simulates hcall R₁ hij e e' hs.2
    | _ => simp only [Statement.erase, reduceCtorEq] at hs

theorem Statement.evalAll_simulates (hcall : Calling.Simulates v call call') (R : Pairing)
    (hij : R.rel i j) (ss ss' : List Statement)
    (hss : Statement.eraseAll v ss = Statement.eraseAll v ss') {last last' : Value}
    (hlast : last.Alike v R last') :
    Run.Simulates v R (Value.Alike v) (Statement.evalAll call i last ss)
      (Statement.evalAll call' j last' ss') := by
  match ss with
  | [] =>
    cases ss' with
    | nil =>
      rw [Statement.evalAll, Statement.evalAll]
      exact simulates_pure hlast
    | cons s' ss' => simp only [Statement.eraseAll, reduceCtorEq] at hss
  | s :: ss =>
    cases ss' with
    | nil => simp only [Statement.eraseAll, reduceCtorEq] at hss
    | cons s' ss' =>
      simp only [Statement.eraseAll, List.cons.injEq] at hss
      rw [Statement.evalAll, Statement.evalAll]
      refine (Statement.eval_simulates hcall R hij s s' hss.1).bind fun R₁ hR₁ x y hxy => ?_
      exact Statement.evalAll_simulates hcall R₁ (hR₁ i j hij) ss ss' hss.2 hxy

end

end

/-- Calls of functions that are alike simulate each other, however deeply they are nested. -/
theorem Closure.call_simulates (v : Erasure) (depth : Nat) :
    Calling.Simulates v (Closure.call depth) (Closure.call depth) := by
  induction depth with
  | zero =>
    intro R f g xs ys hfg hxs
    rw [Closure.call, Closure.call, hfg.arity_eq, hxs.length_eq]
    split
    · refine (Run.simulates_record _ _).bind fun R₁ hR₁ _ _ _ => ?_
      exact Run.simulates_throw .exhausted
    · exact Run.simulates_fail _
  | succ depth ih =>
    intro R f g xs ys hfg hxs
    rw [Closure.call, Closure.call, hfg.arity_eq, hxs.length_eq]
    split
    · refine (Run.simulates_record _ _).bind fun R₁ hR₁ _ _ _ => ?_
      have hxs₁ := hxs.imp fun _ _ hxy => Value.Alike.mono hxy hR₁
      refine (Run.simulates_newFrame (hfg.mono hR₁) hxs₁).bind fun R₂ hR₂ i j hij => ?_
      exact (f.body.eval_simulates ih R₂ hij g.body hfg.body).catchReturn
    · exact Run.simulates_fail _

/-- Programs that are equal up to tokens do the same in stores that are alike. -/
theorem Program.eval_alike (depth : Nat) {p q : Program} (h : p.erase v = q.erase v)
    {i j : FrameId} (hij : R.rel i j) {m m' : Machine} (hm : m.store.Alike v R m'.store) :
    ∃ R', R.Grows R' m.store m'.store (p.eval depth i m).2.store (q.eval depth j m').2.store ∧
      Option.Rel (Value.Alike v R') (p.eval depth i m).1 (q.eval depth j m').1 ∧
      (p.eval depth i m).2.store.Alike v R' (q.eval depth j m').2.store := by
  have hstatements : Statement.eraseAll v p.statements = Statement.eraseAll v q.statements :=
    congrArg Program.statements h
  have hagree := Statement.evalAll_simulates (Closure.call_simulates v depth) R hij p.statements
    q.statements hstatements .null m m' hm
  unfold Program.eval
  revert hagree
  generalize Statement.evalAll _ i _ _ m = x, Statement.evalAll _ j _ _ m' = y
  intro hagree
  cases hagree with
  | ok hR hm hx => exact ⟨_, hR, .some hx, hm⟩
  | error hR hm hi =>
    cases hi with
    | returned hx => exact ⟨_, hR, .some hx, hm⟩
    | failed e => exact ⟨_, hR, .some (.error e), hm⟩
    | exhausted => exact ⟨_, hR, .none, hm⟩

end LetLang
