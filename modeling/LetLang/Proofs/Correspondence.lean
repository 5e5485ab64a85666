import Mathlib.Data.List.Forall2
import LetLang.Store
import LetLang.Proofs.Erasure

/-! Stores that correspond.

Two stores correspond along a pairing of their frames if paired frames bind the same names to
corresponding values and lie in paired frames. Values correspond if they are equal; functions
correspond if they have the same parameters, the same body up to what an erasure forgets, and
captured paired frames. Frames that are not paired may hold anything.

The pairing is one to one, so that binding a name in two paired frames keeps the stores in
correspondence. Frames that are new on both sides can be paired with each other, and pairings
only grow: what corresponds along a pairing corresponds along every larger one. -/
namespace LetLang

/-! ### Pairings -/

/-- A one-to-one pairing of frames. -/
structure Pairing where
  rel : FrameId → FrameId → Prop
  right_unique : ∀ {i j k}, rel i j → rel i k → j = k
  left_unique : ∀ {i j k}, rel i k → rel j k → i = j

namespace Pairing

/-- A pairing is larger if it pairs more frames. -/
instance : LE Pairing := ⟨fun R R' => ∀ i j, R.rel i j → R'.rel i j⟩

theorem le_refl (R : Pairing) : R ≤ R := fun _ _ h => h

theorem le_trans {R R' R'' : Pairing} (h : R ≤ R') (h' : R' ≤ R'') : R ≤ R'' :=
  fun i j hij => h' i j (h i j hij)

/-- One pair of frames. -/
def single (n n' : FrameId) : Pairing where
  rel i j := i = n ∧ j = n'
  right_unique h h' := h.2.trans h'.2.symm
  left_unique h h' := h.1.trans h'.1.symm

/-- One more pair, of frames that are paired with no others. -/
def insert (R : Pairing) (n n' : FrameId) (hleft : ∀ j, R.rel n j → j = n')
    (hright : ∀ i, R.rel i n' → i = n) : Pairing where
  rel i j := R.rel i j ∨ (i = n ∧ j = n')
  right_unique := by
    intro i j k hij hik
    obtain hij | ⟨rfl, rfl⟩ := hij <;> obtain hik | ⟨hi, rfl⟩ := hik
    · exact R.right_unique hij hik
    · exact hleft j (hi ▸ hij)
    · exact (hleft k hik).symm
    · rfl
  left_unique := by
    intro i j k hik hjk
    obtain hik | ⟨rfl, rfl⟩ := hik <;> obtain hjk | ⟨rfl, hk⟩ := hjk
    · exact R.left_unique hik hjk
    · exact hright i (hk ▸ hik)
    · exact (hright j hjk).symm
    · rfl

end Pairing

/-! ### Values, frames and stores -/

/-- Functions with the same parameters, the same body up to what `v` forgets, and captured
paired frames. -/
structure Closure.Corresponds (v : Erasure) (R : Pairing) (f g : Closure) : Prop where
  parameters : f.parameters.map Identifier.name = g.parameters.map Identifier.name
  body : f.body.erase v = g.body.erase v
  frame : R.rel f.frame g.frame

/-- Equal values, or corresponding functions. -/
inductive Value.Corresponds (v : Erasure) (R : Pairing) : Value → Value → Prop where
  | integer (n : Int64) : Corresponds v R (.integer n) (.integer n)
  | boolean (b : Bool) : Corresponds v R (.boolean b) (.boolean b)
  | null : Corresponds v R .null .null
  | function {f g : Closure} (h : f.Corresponds v R g) : Corresponds v R (.function f) (.function g)
  | error (e : RuntimeError) : Corresponds v R (.error e) (.error e)

/-- The same names are bound, to corresponding values. -/
def Frame.Corresponds (v : Erasure) (R : Pairing) (f g : Frame) : Prop :=
  ∀ name, Option.Rel (Value.Corresponds v R) (f.get? name) (g.get? name)

/-- The frame in which the lookup of a name goes on. -/
def Store.around (s : Store) (i : FrameId) : Option FrameId :=
  s.frames[i]?.bind fun f => f.outer.filter (· < i)

/-- Paired frames exist, correspond, and lie in paired frames or in none. -/
structure Store.Corresponds (v : Erasure) (R : Pairing) (s s' : Store) : Prop where
  frames : ∀ {i j}, R.rel i j →
    ∃ f g, s.frames[i]? = some f ∧ s'.frames[j]? = some g ∧ f.Corresponds v R g
  around : ∀ {i j}, R.rel i j → Option.Rel R.rel (s.around i) (s'.around j)

variable {v : Erasure} {R : Pairing}

/-- Corresponding values print the same text, if the digits of numbers are kept. -/
theorem Value.Corresponds.render_eq (hv : v.KeepsDigits) {x y : Value}
    (h : x.Corresponds v R y) : x.render = y.render := by
  cases h with
  | @function f g h =>
    show f.render = g.render
    unfold Closure.render
    rw [h.parameters, ← Block.erase_render hv f.body, h.body, Block.erase_render hv g.body]
  | _ => rfl

/-- Two fresh stores correspond. -/
theorem Store.corresponds_root : root.Corresponds v (.single rootFrame rootFrame) root := by
  constructor
  · intro i j hij
    obtain ⟨rfl, rfl⟩ := hij
    exact ⟨.empty none, .empty none, rfl, rfl, fun _ => .none⟩
  · intro i j hij
    obtain ⟨rfl, rfl⟩ := hij
    exact .none

end LetLang
