import LetLang.Proofs.Judgements
import LetLang.Proofs.Runs

/-! What evaluation keeps.

An invariant of the store goes with a property of values: what is looked up has the property if the
invariant holds, and the invariant holds on if what is bound has the property. A `Contract` lists
what such a pair owes to the single steps of evaluation, in code that satisfies some condition. In
return the invariant holds after every evaluation, however it ends, every value that comes out has
the property, and what interrupts it is as the contract says too (`Contract.rules`).

If a contract promises what it asks for of the bodies of functions and of the frames of calls, it
holds of calls at any depth (`CallContract.calls`). No call is interrupted by a `return`, whatever
the body of its function is, because a call makes a value of it. -/
namespace LetLang

/-! ### Runs -/

/-- As `Q` says, if it is a value that is returned. -/
def Interrupt.Returns (Q : Value → Prop) : Interrupt → Prop
  | .returned v => Q v
  | _ => True

/-- As `R` says, and no `return`. -/
def Interrupt.Beyond (R : Interrupt → Prop) : Interrupt → Prop
  | .returned _ => False
  | i => R i

theorem Interrupt.Beyond.here {R : Interrupt → Prop} {i : Interrupt} (h : i.Beyond R) : R i := by
  cases i with
  | returned v => exact h.elim
  | _ => exact h

namespace Run

variable {α β : Type} {I : Store → Prop} {R R' : Interrupt → Prop} {Q : α → Prop} {Q' : β → Prop}

/-- The store that a run leads to is as `I` says, the value that it ends with as `Q` says, and what
interrupts it as `R` says. -/
def Allows (I : Store → Prop) (R : Interrupt → Prop) (Q : α → Prop) :
    EStateM.Result Interrupt Machine α → Prop
  | .ok a m => I m.store ∧ Q a
  | .error i m => I m.store ∧ R i

/-- What comes of the run is allowed, if it starts in a store as `I` says. -/
def Meets (I : Store → Prop) (R : Interrupt → Prop) (Q : α → Prop) (r : Run α) : Prop :=
  ∀ m, I m.store → Allows I R Q (r m)

theorem meets_pure {a : α} (h : Q a) : (pure a : Run α).Meets I R Q := fun _ hm => ⟨hm, h⟩

theorem meets_throw {i : Interrupt} (h : R i) : (throw i : Run α).Meets I R Q := fun _ hm => ⟨hm, h⟩

theorem meets_record (e : Event) : (record e).Meets I R fun _ => True := fun _ hm => ⟨hm, trivial⟩

theorem Meets.bind {r : Run α} {f : α → Run β} (hr : r.Meets I R Q)
    (hf : ∀ a, Q a → (f a).Meets I R Q') : (r >>= f).Meets I R Q' := by
  intro m hm
  have h := hr m hm
  rw [bind_apply]
  cases hresult : r m with
  | ok a m' =>
    rw [hresult] at h
    exact hf a h.2 m' h.1
  | error i m' =>
    rw [hresult] at h
    exact h

theorem Meets.mono {r : Run α} (h : r.Meets I R Q) (hR : ∀ i, R i → R' i) : r.Meets I R' Q := by
  intro m hm
  have hr := h m hm
  cases hresult : r m with
  | ok a m' => rwa [hresult] at hr
  | error i m' =>
    rw [hresult] at hr
    exact ⟨hr.1, hR i hr.2⟩

theorem Meets.after {r : Run α} (h : r.Meets I R Q) {m : Machine} (hm : I m.store) :
    I (r.after m).store := by
  have hr := h m hm
  unfold Run.after
  cases hresult : r m with
  | ok a m' =>
    rw [hresult] at hr
    exact hr.1
  | error i m' =>
    rw [hresult] at hr
    exact hr.1

/-- A run of which nothing is asked but that it keeps an invariant. -/
theorem meets_of_after {r : Run α} (h : ∀ m, I m.store → I (r.after m).store) :
    r.Meets I (fun _ => True) fun _ => True := by
  intro m hm
  have hr := h m hm
  unfold Run.after at hr
  cases hresult : r m with
  | ok a m' =>
    rw [hresult] at hr
    exact ⟨hr, trivial⟩
  | error i m' =>
    rw [hresult] at hr
    exact ⟨hr, trivial⟩

/-- Where a `return` is over, no run is interrupted by it. -/
theorem Meets.catchReturn {Q : Value → Prop} {r : Run Value} (h : r.Meets I R Q)
    (hreturned : ∀ v, R (.returned v) → Q v) : (catchReturn r).Meets I (Interrupt.Beyond R) Q := by
  intro m hm
  have hr := h m hm
  rw [catchReturn_apply]
  cases hresult : r m with
  | ok v m' => rwa [hresult] at hr
  | error i m' =>
    rw [hresult] at hr
    cases i with
    | returned v => exact ⟨hr.1, hreturned v hr.2⟩
    | _ => exact hr

/-- The judgement that a run meets, whatever it writes. -/
abbrev meeting (I : Store → Prop) (R : Interrupt → Prop) : Judgement :=
  fun n Q r _ => r.Meets I R (Q n)

theorem structural_meeting (I : Store → Prop) (R : Interrupt → Prop) :
    Judgement.Structural (meeting I R) where
  pure h := meets_pure (h _ (Nat.le_refl _))
  bind hr hf := hr.bind fun a ha => hf a _ (Nat.le_refl _) ha
  record {_ e} _ := meets_record e

end Run

/-! ### Contracts -/

/-- What an invariant `I` of the store, a property `Q` of values and one `R` of interrupts owe to the
evaluation of code as `S` says in the frames that are as `P` says. -/
structure Contract (S : Condition) (I : Store → Prop) (P : FrameId → Prop) (Q : Value → Prop)
    (R : Interrupt → Prop) : Prop where
  null : Q .null
  integer : ∀ k, Q (.integer k)
  boolean : ∀ b, Q (.boolean b)
  function : ∀ {t ps b i} n, S.expr (.function t ps b) → P i → Q (.function ⟨n, ps, b, i⟩)
  lookup : ∀ {x s i v}, S.expr (.identifier x) → I s → P i → s.lookup i x.name = some v → Q v
  define : ∀ {t x e s i v}, S.statement (.letIn t x e) → I s → P i → Q v →
    I (s.define i x.name v)
  count : ∀ {s} n, I s → I { s with functions := n }
  fail : ∀ {e}, e.IsNameless → R (.failed e)
  unbound : ∀ {x}, S.expr (.identifier x) → R (.failed (.unknownIdentifier x.name))
  returned : ∀ {s v}, S.statement s → s.isReturn → Q v → R (.returned v)

/-- What they owe to calls of functions as `Q` says, besides. -/
structure CallContract (S : Condition) (I : Store → Prop) (P : FrameId → Prop) (Q : Value → Prop)
    (R : Interrupt → Prop) : Prop extends Contract S I P Q R where
  body : ∀ {g}, Q (.function g) → S.block g.body
  push : ∀ {s g vs}, I s → Q (.function g) → (∀ v ∈ vs, Q v) →
    I (s.push (.ofCall g vs)) ∧ P s.frames.size
  caught : ∀ v, R (.returned v) → Q v
  exhausted : R .exhausted

section
variable {S : Condition} {I : Store → Prop} {P : FrameId → Prop} {Q : Value → Prop}
  {R : Interrupt → Prop} {frame : FrameId}

theorem Contract.rules (c : Contract S I P Q R) (hframe : P frame) :
    Rules S frame 0 (Run.meeting I R) fun _ => Q where
  toStructural := Run.structural_meeting I R
  integer := c.integer
  boolean := c.boolean
  null := c.null
  mono h _ := h
  fail h := Run.meets_throw (c.fail h)
  lookup {n x} _ hx m hm := by
    rw [Run.lookup_apply]
    cases hv : m.store.lookup frame x.name with
    | some v => exact ⟨hm, c.lookup hx hm hframe hv⟩
    | none => exact ⟨hm, c.unbound hx⟩
  function _ h _ hm := ⟨c.count _ hm, c.function _ h hframe⟩
  define _ h hv _ hm := ⟨c.define h hm hframe hv, trivial⟩
  returned h hs hv := Run.meets_throw (c.returned h hs hv)

/-- Calls keep what evaluation keeps, at any depth, and none of them is interrupted by a `return`,
whatever the body of its function is. -/
theorem CallContract.calls (c : CallContract S I P Q R) (depth : Nat) :
    Calling.Obeys (Run.meeting I (Interrupt.Beyond R)) (fun _ => Q) (Closure.call depth)
      (Closure.writes depth) := by
  refine Closure.call_obeys (fun g vs => ?_) (fun g => ?_) (fun {call log} hcall g vs n hg hvs => ?_)
    depth
  · exact Run.meets_throw (c.fail trivial)
  · exact (Run.meets_record _).bind fun _ _ => Run.meets_throw c.exhausted
  · have hobeys : call.Obeys (Run.meeting I R) (fun _ => Q) log :=
      fun g vs n hg hvs => (hcall g vs n hg hvs).mono fun _ h => h.here
    have hnew : (Run.newFrame (.ofCall g vs)).Meets I (Interrupt.Beyond R) P :=
      fun _ hm => c.push hm hg hvs
    refine (Run.meets_record _).bind fun _ _ => hnew.bind fun i hi => ?_
    exact ((c.rules hi).block hobeys (Nat.le_refl 0) g.body (c.body hg)).catchReturn c.caught

theorem CallContract.obeys (c : CallContract S I P Q R) (depth : Nat) :
    Calling.Obeys (Run.meeting I R) (fun _ => Q) (Closure.call depth) (Closure.writes depth) :=
  fun g vs n hg hvs => (c.calls depth g vs n hg hvs).mono fun _ h => h.here

/-- A program keeps what its statements keep. It has the value that they end with or return, or else
the error that they fail with, if there is one. -/
theorem CallContract.program (c : CallContract S I P Q R) (herror : ∀ e, R (.failed e) → Q (.error e))
    (depth : Nat) (hframe : P frame) {p : Program} (hp : S.statements p.statements) {m : Machine}
    (hm : I m.store) :
    I (p.eval depth frame m).2.store ∧ ∀ v, (p.eval depth frame m).1 = some v → Q v := by
  have hmeets := (c.rules hframe).statements (c.obeys depth) (Nat.le_refl 0) .null c.null
    p.statements hp m hm
  unfold Program.eval
  cases hresult : Statement.evalAll (Closure.call depth) frame .null p.statements m with
  | ok w m' =>
    rw [hresult] at hmeets
    refine ⟨hmeets.1, fun v hv => ?_⟩
    cases hv
    exact hmeets.2
  | error i m' =>
    rw [hresult] at hmeets
    refine ⟨?_, fun v hv => ?_⟩
    · cases i <;> exact hmeets.1
    · cases i with
      | returned w =>
        cases hv
        exact c.caught v hmeets.2
      | failed e =>
        cases hv
        exact herror e hmeets.2
      | exhausted => cases hv

end

end LetLang
