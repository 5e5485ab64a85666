import LetLang.Session
import LetLang.Proofs.ErrorValues
import LetLang.Proofs.Spelling

/-! Well-formed programs leave well-formed stores.

Whatever is read is well formed, and evaluation makes functions of nothing but the code that it
runs. So the functions that a store holds, on whatever way they came there, have parameters that
are names and bodies that are well formed; so do the values that come out; and an error that names
something names a name (`Program.eval_wellFormed`). -/
namespace LetLang

/-! ### What is well formed -/

/-- If the error tells a name, it is one. -/
def RuntimeError.WellFormed : RuntimeError → Prop
  | .unknownIdentifier name => IsName name
  | _ => True

/-- The code of a function is well formed. -/
structure Closure.WellFormed (g : Closure) : Prop where
  parameters : ∀ i ∈ g.parameters, IsName i.name
  body : g.body.WellFormed

/-- A function or an error is well formed, and any other value is. -/
def Value.WellFormed : Value → Prop
  | .function g => g.WellFormed
  | .error e => e.WellFormed
  | _ => True

/-- What interrupts a run is well formed. -/
def Interrupt.WellFormed : Interrupt → Prop
  | .returned v => v.WellFormed
  | .failed e => e.WellFormed
  | .exhausted => True

/-- All values that are bound in a frame of the store are well formed. -/
def Store.WellFormed (s : Store) : Prop :=
  ∀ {i : FrameId} {f : Frame} {name : String} {v : Value}, s.frames[i]? = some f →
    f.get? name = some v → v.WellFormed

theorem RuntimeError.IsNameless.wellFormed {e : RuntimeError} (h : e.IsNameless) : e.WellFormed := by
  cases e with
  | unknownIdentifier name => exact h.elim
  | _ => trivial

/-! ### What is bound -/

/-- All values that are bound in a frame of the store are as `Q` says. -/
def Store.Binds (Q : Value → Prop) (s : Store) : Prop :=
  ∀ ⦃i : FrameId⦄ ⦃f : Frame⦄ ⦃name : String⦄ ⦃v : Value⦄, s.frames[i]? = some f →
    f.get? name = some v → Q v

namespace Store.Binds

variable {Q Q' : Value → Prop} {s : Store}

theorem root : Store.root.Binds Q := by
  intro i f name v hf hv
  rw [Store.root, frames_push] at hf
  split at hf <;> cases hf
  cases hv

theorem mono (h : s.Binds Q) (hQ : ∀ v, Q v → Q' v) : s.Binds Q' := fun _ _ _ _ hf hv => hQ _ (h hf hv)

theorem lookup (h : s.Binds Q) (frame : FrameId) {name : String} {v : Value}
    (hv : s.lookup frame name = some v) : Q v := by
  obtain ⟨_, _, hf, hget⟩ := exists_bound_of_lookup frame hv
  exact h hf hget

theorem define (h : s.Binds Q) (frame : FrameId) (name : String) {v : Value} (hv : Q v) :
    (s.define frame name v).Binds Q := by
  intro i f n w hf hw
  rw [frames_define] at hf
  split at hf
  · obtain ⟨g, hg, rfl⟩ := Option.map_eq_some_iff.mp hf
    rw [Frame.get?_set] at hw
    split at hw
    · cases hw
      exact hv
    · exact h hg hw
  · exact h hf hw

theorem enter (h : s.Binds Q) (g : Closure) {vs : List Value} (hvs : ∀ v ∈ vs, Q v) :
    (s.push (.ofCall g vs)).Binds Q := by
  intro i f n w hf hw
  rw [frames_push] at hf
  split at hf
  · cases hf
    exact hvs w (Frame.mem_of_get?_ofCall hw)
  · exact h hf hw

end Store.Binds

namespace Store

variable {s : Store} {frame : FrameId} {name : String} {v : Value}

theorem wellFormed_iff_binds : s.WellFormed ↔ s.Binds Value.WellFormed :=
  ⟨fun h _ _ _ _ hf hv => h hf hv, fun h _ _ _ _ hf hv => h hf hv⟩

theorem root_wellFormed : root.WellFormed := wellFormed_iff_binds.mpr .root

theorem WellFormed.lookup (h : s.WellFormed) (frame : FrameId) (hv : s.lookup frame name = some v) :
    v.WellFormed := (wellFormed_iff_binds.mp h).lookup frame hv

theorem WellFormed.define (h : s.WellFormed) (hv : v.WellFormed) :
    (s.define frame name v).WellFormed :=
  wellFormed_iff_binds.mpr ((wellFormed_iff_binds.mp h).define frame name hv)

theorem WellFormed.enter (h : s.WellFormed) {g : Closure} {vs : List Value}
    (hvs : ∀ v ∈ vs, v.WellFormed) : (s.push (.ofCall g vs)).WellFormed :=
  wellFormed_iff_binds.mpr ((wellFormed_iff_binds.mp h).enter g hvs)

end Store

/-! ### Evaluation -/

/-- The code is well formed. -/
def Condition.wellFormed : Condition where
  expr := Expr.WellFormed
  exprs := Expr.AllWellFormed
  block := Block.WellFormed
  statement := Statement.WellFormed
  statements := Statement.AllWellFormed
  unary h := h
  binary h := h
  ifThen h := h
  ifThenElse h := h
  call h := h
  cons h := h
  content h := h
  letIn h := h.2
  returnValue h := h
  expression h := h
  next h := h

theorem Store.wellFormed_contract :
    CallContract .wellFormed Store.WellFormed (fun _ => True) Value.WellFormed
      Interrupt.WellFormed where
  null := trivial
  integer _ := trivial
  boolean _ := trivial
  function _ h _ := ⟨h.1, h.2⟩
  lookup _ hs _ hv := hs.lookup _ hv
  define _ hs _ hv := hs.define hv
  count _ hs := hs
  fail h := h.wellFormed
  unbound h := h
  returned _ _ hv := hv
  body hg := hg.body
  push hs _ hvs := ⟨hs.enter hvs, trivial⟩
  caught _ hv := hv
  exhausted := trivial

/-- **A well-formed program leaves a well-formed store, and its value is well formed.** -/
theorem Program.eval_wellFormed {p : Program} (hp : p.WellFormed) (depth : Nat) (frame : FrameId)
    {m : Machine} (hm : m.store.WellFormed) :
    (p.eval depth frame m).2.store.WellFormed ∧
      ∀ v, (p.eval depth frame m).1 = some v → v.WellFormed :=
  Store.wellFormed_contract.program (fun _ he => he) depth trivial hp hm

end LetLang
