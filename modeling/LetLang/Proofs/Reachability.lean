import LetLang.Proofs.Confinement
import LetLang.Proofs.Simulation

/-! What a call depends on.

A call can see the frame that its function captured, the frames captured by the functions among its
arguments, and whatever can be reached from there, around frames and through the functions bound
in them. It depends on nothing else: where the store is the same as far as it can be reached, up to
a renumbering of frames, the call does the same up to a renumbering that also covers the frames it
makes (`Application.agree`). And since calls change no frame that was there before, a function may
be called again later, after any other calls, to the same effect. -/
namespace LetLang

/-! ### Reachable frames -/

/-- The frames that can be reached from `roots`. -/
inductive Store.Reaches (s : Store) (roots : List FrameId) : FrameId → Prop where
  | root {i : FrameId} (hi : i ∈ roots) : Reaches s roots i
  | around {i o : FrameId} (hi : Reaches s roots i) (ho : s.around i = some o) : Reaches s roots o
  | captured {i : FrameId} {f : Frame} {name : String} {g : Closure} (hi : Reaches s roots i)
      (hf : s.frames[i]? = some f) (hg : f.get? name = some (.function g)) : Reaches s roots g.frame

/-- What can be reached from `roots` is the same in another store, in the paired frames: the same
names are bound to the same values, functions being compared by their parameters, their body and
the pairing of the frames that they captured, and lookup goes on in paired frames. -/
structure Store.SameFrom (R : Pairing) (roots : List FrameId) (s s' : Store) : Prop where
  frames : ∀ {i j}, s.Reaches roots i → R.rel i j →
    ∃ f g, s.frames[i]? = some f ∧ s'.frames[j]? = some g ∧ f.Alike .exact R g
  around : ∀ {i j}, s.Reaches roots i → R.rel i j → Option.Rel R.rel (s.around i) (s'.around j)

/-- The pairs whose first frame is as `P` says. -/
def Pairing.restrict (R : Pairing) (P : FrameId → Prop) : Pairing where
  rel i j := R.rel i j ∧ P i
  right_unique h h' := R.right_unique h.1 h'.1
  left_unique h h' := R.left_unique h.1 h'.1

/-- The number of the frame that a function captured. -/
def Value.frame? : Value → Option FrameId
  | .function f => some f.frame
  | _ => none

theorem Value.exists_of_mem_frame? {x : Value} {i : FrameId} (h : i ∈ x.frame?) :
    ∃ g, x = .function g ∧ g.frame = i := by
  cases x with
  | function g => exact ⟨g, rfl, Option.some.inj h⟩
  | _ => cases h

/-- Likeness is a matter of the frames that are captured. -/
theorem Value.Alike.restrict {R : Pairing} {P : FrameId → Prop} {v : Erasure} {x y : Value}
    (h : x.Alike v R y) (hP : ∀ i ∈ x.frame?, P i) : x.Alike v (R.restrict P) y := by
  cases h with
  | integer n => exact .integer n
  | boolean b => exact .boolean b
  | null => exact .null
  | function h => exact .function ⟨h.parameters, h.body, h.frame, hP _ rfl⟩
  | error e => exact .error e

namespace Store

variable {R : Pairing} {roots : List FrameId} {s s' : Store}

/-- Stores that are the same from `roots` are alike along what can be reached. -/
theorem SameFrom.alike (h : s.SameFrom R roots s') :
    s.Alike .exact (R.restrict (s.Reaches roots)) s' := by
  refine ⟨?_, ?_, ?_⟩
  · intro i j ⟨hij, hi⟩
    obtain ⟨f, g, hf, hg, hfg⟩ := h.frames hi hij
    rw [hf, hg]
    refine .some fun name => ?_
    -- What is bound in a reachable frame captured a reachable frame.
    refine option_rel_imp (fun x y hx hxy => hxy.restrict fun k hk => ?_) (hfg name)
    obtain ⟨c, rfl, rfl⟩ := Value.exists_of_mem_frame? hk
    exact .captured hi hf hx
  · intro i j ⟨hij, hi⟩
    exact option_rel_imp (fun o p ho hop => ⟨hop, .around hi ho⟩) (h.around hi hij)
  · intro i j ⟨hij, hi⟩ hsize
    obtain ⟨f, _, hf, _⟩ := h.frames hi hij
    exact absurd (Array.getElem?_eq_some_iff.mp hf).1 (Nat.not_lt_of_le hsize)

/-- Where no frame was changed, everything that could be reached is the same. -/
theorem Untouched.sameFrom (h : s.Untouched s')
    (hexist : ∀ i, s.Reaches roots i → i < s.frames.size) : s.SameFrom .identity roots s' := by
  have hframe {i : FrameId} (hi : s.Reaches roots i) : s'.frames[i]? = s.frames[i]? :=
    h.same i (hexist i hi)
  refine ⟨?_, ?_⟩
  · rintro i j hi rfl
    have hlt := hexist i hi
    have hf : s.frames[i]? = some s.frames[i] := Array.getElem?_eq_getElem hlt
    exact ⟨_, _, hf, (hframe hi).trans hf, Frame.alike_refl .exact _⟩
  · rintro i j hi rfl
    rw [around, around, hframe hi]
    exact option_rel_refl (fun _ => rfl) _

/-! ### Regions -/

/-- Evaluation does not leave the frames in `P`: they lie in one another, and those that are yet to be
made are among them. Whatever they bind to a name as `A` says is as `Q` says. -/
structure Region (P : FrameId → Prop) (A : String → Prop) (Q : Value → Prop) (s : Store) : Prop where
  bound : ∀ {i : FrameId} {f : Frame} {name : String} {v : Value}, P i → s.frames[i]? = some f →
    A name → f.get? name = some v → Q v
  around : ∀ {i o : FrameId}, P i → s.around i = some o → P o
  fresh : ∀ i, s.frames.size ≤ i → P i

section
variable {P : FrameId → Prop} {A : String → Prop} {Q : Value → Prop}

/-- A name is looked up among the bindings of frames in the region. -/
theorem Region.lookup (h : s.Region P A Q) (i : FrameId) (hi : P i) {name : String} (hname : A name)
    {v : Value} (hv : s.lookup i name = some v) : Q v := by
  rw [lookup_eq] at hv
  split at hv
  · rename_i x hx
    obtain ⟨f, hf, hget⟩ := Option.bind_eq_some_iff.mp hx
    cases hv
    exact h.bound hi hf hname hget
  · obtain ⟨o, ho, hv⟩ := Option.bind_eq_some_iff.mp hv
    have hlt := lt_of_around ho
    exact h.lookup o (h.around hi ho) hname hv
termination_by i

theorem Region.define (h : s.Region P A Q) (frame : FrameId) (name : String) {v : Value} (hv : Q v) :
    (s.define frame name v).Region P A Q := by
  refine ⟨fun {i f n w} hi hf hn hw => ?_, fun {i o} hi ho => ?_, fun i hi => ?_⟩
  · rw [frames_define] at hf
    split at hf
    · obtain ⟨g, hg, rfl⟩ := Option.map_eq_some_iff.mp hf
      rw [Frame.get?_set] at hw
      split at hw
      · cases hw
        exact hv
      · exact h.bound hi hg hn hw
    · exact h.bound hi hf hn hw
  · rw [around_define] at ho
    exact h.around hi ho
  · rw [size_define] at hi
    exact h.fresh i hi

/-- The frame of a call of a function that captured a frame of the region. -/
theorem Region.push (h : s.Region P A Q) {g : Closure} {vs : List Value} (hg : P g.frame)
    (hvs : ∀ v ∈ vs, Q v) : (s.push (.ofCall g vs)).Region P A Q := by
  refine ⟨fun {i f n w} hi hf hn hw => ?_, fun {i o} hi ho => ?_, fun i hi => ?_⟩
  · rw [frames_push] at hf
    split at hf
    · cases hf
      exact hvs w (Frame.mem_of_get?_ofCall hw)
    · exact h.bound hi hf hn hw
  · rw [around_push] at ho
    split at ho
    · rw [Frame.outer_ofCall] at ho
      obtain ⟨ho, _⟩ := Option.filter_eq_some_iff.mp ho
      cases ho
      exact hg
    · exact h.around hi ho
  · rw [size_push] at hi
    exact h.fresh i (Nat.le_of_succ_le hi)

theorem Region.count (h : s.Region P A Q) (n : Nat) :
    Region P A Q { s with functions := n } := ⟨h.bound, h.around, h.fresh⟩

/-- The frames that can be reached, with those that are yet to be made, are a region. -/
theorem region_reaches (h : ∀ (i : FrameId) (f : Frame) (name : String) (v : Value),
      s.Reaches roots i → s.frames[i]? = some f → A name → f.get? name = some v → Q v) :
    s.Region (fun i => s.Reaches roots i ∨ s.frames.size ≤ i) A Q := by
  have hmissing {i : FrameId} (hi : s.frames.size ≤ i) : s.frames[i]? = none :=
    Array.getElem?_eq_none hi
  refine ⟨?_, ?_, fun i hi => .inr hi⟩
  · rintro i f name v (hi | hi) hf hname hv
    · exact h i f name v hi hf hname hv
    · rw [hmissing hi] at hf
      cases hf
  · rintro i o (hi | hi) ho
    · exact .inl (.around hi ho)
    · rw [Store.around, hmissing hi] at ho
      cases ho

end

end Store

/-! ### Applications -/

/-- A function and what it is called on, and how deeply calls may be nested in the call. -/
structure Application where
  depth : Nat
  function : Closure
  arguments : List Value

namespace Application

/-- The call. -/
def run (a : Application) : Run Value := a.function.call a.depth a.arguments

/-- The frames that the call starts from. -/
def roots (a : Application) : List FrameId :=
  a.function.frame :: a.arguments.filterMap Value.frame?

/-- The same function on the same arguments, but for the numbers of frames. -/
structure Same (R : Pairing) (a b : Application) : Prop where
  depth : a.depth = b.depth
  function : a.function.Alike .exact R b.function
  arguments : List.Forall₂ (Value.Alike .exact R) a.arguments b.arguments

theorem same_refl (a : Application) : a.Same .identity a :=
  ⟨rfl, ⟨rfl, rfl, rfl⟩, List.forall₂_same.mpr fun x _ => x.alike_refl .exact⟩

/-- A call depends on nothing but what it can reach. -/
theorem agree {R : Pairing} {a b : Application} (h : a.Same R b) {m m' : Machine}
    (hm : m.store.SameFrom R a.roots m'.store) :
    Run.Agree .exact (R.restrict (m.store.Reaches a.roots)) m.store m'.store (Value.Alike .exact)
      (a.run m) (b.run m') := by
  have hfunction : a.function.Alike .exact (R.restrict (m.store.Reaches a.roots)) b.function :=
    ⟨h.function.parameters, h.function.body, h.function.frame, .root (List.mem_cons_self ..)⟩
  have harguments : List.Forall₂ (Value.Alike .exact (R.restrict (m.store.Reaches a.roots)))
      a.arguments b.arguments := by
    have hroots : ∀ x ∈ a.arguments, ∀ i ∈ x.frame?, m.store.Reaches a.roots i :=
      fun x hx i hi => .root (List.mem_cons_of_mem _ (List.mem_filterMap.mpr ⟨x, hx, hi⟩))
    have hvalues := h.arguments
    revert hroots hvalues
    generalize a.arguments = xs, b.arguments = ys, m.store.Reaches a.roots = P
    intro hP hvalues
    induction hvalues with
    | nil => exact .nil
    | cons hxy _ ih =>
      obtain ⟨hx, hxs⟩ := List.forall_mem_cons.mp hP
      exact .cons (hxy.restrict hx) (ih hxs)
  rw [run, run, ← h.depth]
  exact Closure.call_simulates .exact a.depth _ _ _ _ _ hfunction harguments m m' hm.alike

end Application

/-- The machine after some calls, made one after another, however each of them ends. -/
def Machine.applying (m : Machine) (calls : List Application) : Machine :=
  calls.foldl (fun m a => a.run.after m) m

theorem Machine.applying_untouched (m : Machine) (calls : List Application) :
    m.store.Untouched (m.applying calls).store := by
  induction calls generalizing m with
  | nil => exact .refl m.store
  | cons a calls ih => exact (Closure.call_untouched a.depth a.function a.arguments m).trans (ih (a.run.after m))

/-- **A call is a function of what it can reach.** In two stores that are the same as far as the
call can reach, up to a renumbering of frames, it ends in the same way: with the same error, with
equal values, with functions of the same code in corresponding frames, or on both sides because
calls are nested too deeply. The renumbering has grown by frames that the calls have made. And so
it ends in the same store later, after it was made before and any number of other calls. -/
theorem application_determined :
    (∀ (R : Pairing) (a b : Application) (m m' : Machine), a.Same R b →
      m.store.SameFrom R a.roots m'.store →
      Run.Agree .exact (R.restrict (m.store.Reaches a.roots)) m.store m'.store
        (Value.Alike .exact) (a.run m) (b.run m')) ∧
    ∀ (a : Application) (m : Machine) (calls : List Application),
      (∀ i, m.store.Reaches a.roots i → i < m.store.frames.size) →
      Run.Agree .exact (Pairing.identity.restrict (m.store.Reaches a.roots)) m.store
        (m.applying (a :: calls)).store (Value.Alike .exact)
        (a.run m) (a.run (m.applying (a :: calls))) := by
  refine ⟨fun R a b m m' hab hm => Application.agree hab hm, fun a m calls hexist => ?_⟩
  have huntouched := m.applying_untouched (a :: calls)
  exact Application.agree a.same_refl (huntouched.sameFrom hexist)

/-- A function bound in the frame that it captured, called where that frame is the first one and
where it is the second one. -/
theorem application_determined_renumbered :
    let t : Token := .endOfInput 0
    let f (i : FrameId) : Closure :=
      ⟨0, [⟨t, "x"⟩], .mk t [.expression t (.identifier ⟨t, "f"⟩)], i⟩
    let frame (i : FrameId) : Frame := ⟨[("n", .integer 2), ("f", .function (f i))], none⟩
    let m : Machine := .on ⟨#[frame 0], 1⟩
    let m' : Machine := .on ⟨#[.empty none, frame 1], 1⟩
    let a (i : FrameId) : Application := ⟨1, f i, [.null]⟩
    let R := Pairing.single 0 1
    (a 0).Same R (a 1) ∧ m.store.SameFrom R (a 0).roots m'.store ∧
      (∀ i, m.store.Reaches (a 0).roots i → i < m.store.frames.size) ∧
      Run.Agree .exact (R.restrict (m.store.Reaches (a 0).roots)) m.store m'.store
        (Value.Alike .exact) ((a 0).run m) ((a 1).run m') ∧
      Run.Agree .exact (Pairing.identity.restrict (m.store.Reaches (a 0).roots)) m.store
        (m.applying [a 0, a 0]).store (Value.Alike .exact)
        ((a 0).run m) ((a 0).run (m.applying [a 0, a 0])) := by
  intro t f frame m m' a R
  have hf : (f 0).Alike .exact R (f 1) := ⟨rfl, rfl, rfl, rfl⟩
  have hget (i : FrameId) (name : String) : (frame i).get? name =
      if name = "n" then some (.integer 2) else if name = "f" then some (.function (f i)) else none := by
    simp only [frame, Frame.get?, List.lookup_cons, List.lookup_nil, beq_eq_decide]
    split <;> split <;> simp_all
  have hsame : (a 0).Same R (a 1) := ⟨rfl, hf, .cons .null .nil⟩
  have hreach : ∀ i, m.store.Reaches (a 0).roots i → i = 0 := by
    intro i hi
    induction hi with
    | root hi => exact List.mem_singleton.mp hi
    | around _ ho ih =>
      subst ih
      cases ho
    | captured _ hframe hg ih =>
      subst ih
      obtain rfl : frame 0 = _ := Option.some.inj hframe
      rw [hget] at hg
      split at hg
      · cases hg
      split at hg
      · cases hg
        rfl
      · cases hg
  have hstore : m.store.SameFrom R (a 0).roots m'.store := by
    refine ⟨?_, ?_⟩
    · rintro i j - ⟨rfl, rfl⟩
      refine ⟨frame 0, frame 1, rfl, rfl, fun name => ?_⟩
      rw [hget, hget]
      split
      · exact .some (.integer 2)
      split
      · exact .some (.function hf)
      · exact .none
    · rintro i j - ⟨rfl, rfl⟩
      exact .none
  have hexist : ∀ i, m.store.Reaches (a 0).roots i → i < m.store.frames.size := by
    intro i hi
    rw [hreach i hi]
    exact Nat.one_pos
  exact ⟨hsame, hstore, hexist, application_determined.1 R (a 0) (a 1) m m' hsame hstore,
    application_determined.2 (a 0) m [a 0] hexist⟩

end LetLang
