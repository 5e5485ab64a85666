import LetLang.Proofs.Overlooking
import LetLang.Proofs.Provenance
import LetLang.Proofs.Scopes

/-! Bindings that are not mentioned never matter.

Two stores may differ in what the names of a set are bound to, in any of their frames, and one of
them may have frames besides that only these names lead to. A program that does not mention the names,
and calls no function that does, has the same outcome in both. Afterwards the stores differ in nothing
else, and in both of them the names are bound as before (`unmentioned_bindings_irrelevant`).

With the bindings left out, the stores are alike (`Store.sameBut_iff`). So the proof goes from the
first store to what is left of it, from there to what is left of the second one, and back. -/
namespace LetLang

/-! ### Stores that differ in the bindings of some names -/

/-- But for the bindings of the names in `N`, the stores are the same along `R`, which is also about
the frames that are yet to be made. -/
structure Store.SameBut (N : Set String) (R : Pairing) (s s' : Store) : Prop where
  /-- Every frame has a counterpart. -/
  paired : ∀ i < s.frames.size, ∃ j, R.rel i j
  /-- So have the frames that are made from now on, in the order in which they are made. -/
  fresh : ∀ k, R.rel (s.frames.size + k) (s'.frames.size + k)
  /-- All other names are bound to the same values, functions being compared by their code and the
  frames that they captured. -/
  bindings : ∀ {i j}, R.rel i j → ∀ name ∉ N,
    Option.Rel (Value.Alike .exact R) (s.binding i name) (s'.binding j name)
  /-- Lookup goes on in counterparts. -/
  around : ∀ {i j}, R.rel i j → Option.Rel R.rel (s.around i) (s'.around j)

/-- No name in `N` occurs in the program, and none in the code of a function that can be reached from
the frame. -/
structure Program.NeverMentions (N : Set String) (s : Store) (frame : FrameId) (p : Program) :
    Prop where
  program : ∀ name ∈ p.names, name ∉ N
  functions : ∀ {i : FrameId} {f : Frame} {name : String} {g : Closure}, s.Reaches [frame] i →
    s.frames[i]? = some f → f.get? name = some (.function g) → ∀ n ∈ g.names, n ∉ N

section
variable {N : Set String} {R : Pairing} {s s' : Store}

namespace Store

theorem binding_without (s : Store) (i : FrameId) {name : String} (h : name ∉ N) :
    (s.without N).binding i name = s.binding i name := by
  unfold binding
  rw [frames_without]
  cases s.frames[i]? with
  | none => rfl
  | some f => exact f.get?_without h

theorem binding_of_getElem?_eq_some {i : FrameId} {f : Frame} (h : s.frames[i]? = some f)
    (name : String) : s.binding i name = f.get? name := by
  rw [binding, h, Option.bind_some]

/-- What is paired with a frame that is yet to be made is yet to be made too, and as far off. -/
theorem SameBut.aligned (h : s.SameBut N R s') {i j : Nat} (hij : R.rel i j) :
    (i < s.frames.size ↔ j < s'.frames.size) ∧
      (s.frames.size ≤ i → i + s'.frames.size = j + s.frames.size) := by
  have hright (hi : s.frames.size ≤ i) : j = s'.frames.size + (i - s.frames.size) := by
    have hfresh := h.fresh (i - s.frames.size)
    rw [Nat.add_sub_cancel' hi] at hfresh
    exact R.right_unique hij hfresh
  have hleft (hj : s'.frames.size ≤ j) : i = s.frames.size + (j - s'.frames.size) := by
    have hfresh := h.fresh (j - s'.frames.size)
    rw [Nat.add_sub_cancel' hj] at hfresh
    exact R.left_unique hij hfresh
  omega

/-- Every frame has a counterpart, also if it is yet to be made. -/
theorem SameBut.exists_rel (h : s.SameBut N R s') (i : FrameId) : ∃ j, R.rel i j := by
  obtain hi | hi := Nat.lt_or_ge i s.frames.size
  · exact h.paired i hi
  · have hfresh := h.fresh (i - s.frames.size)
    rw [Nat.add_sub_cancel' hi] at hfresh
    exact ⟨_, hfresh⟩

/-- Counterparts are alike where the bindings of the names in `N` are left out. -/
theorem SameBut.frames (h : s.SameBut N R s') {i j : FrameId} (hij : R.rel i j) :
    Option.Rel (Frame.Alike .exact R) (s.without N).frames[i]? (s'.without N).frames[j]? := by
  have hexists := (h.aligned hij).1
  have hbindings := h.bindings hij
  rw [frames_without, frames_without]
  match hf : s.frames[i]?, hg : s'.frames[j]? with
  | none, none => exact .none
  | some f, none =>
    have hi := (Array.getElem?_eq_some_iff.mp hf).1
    exact absurd (hexists.mp hi) (Nat.not_lt_of_le (Array.getElem?_eq_none_iff.mp hg))
  | none, some g =>
    have hj := (Array.getElem?_eq_some_iff.mp hg).1
    exact absurd (hexists.mpr hj) (Nat.not_lt_of_le (Array.getElem?_eq_none_iff.mp hf))
  | some f, some g =>
    refine .some fun name => ?_
    by_cases hname : name ∈ N
    · rw [f.get?_without_of_mem hname, g.get?_without_of_mem hname]
      exact .none
    · have hfg := hbindings name hname
      rw [binding_of_getElem?_eq_some hf, binding_of_getElem?_eq_some hg] at hfg
      rw [f.get?_without hname, g.get?_without hname]
      exact hfg

/-- Stores are the same but for some bindings if they are alike where these are left out. -/
theorem sameBut_iff : s.SameBut N R s' ↔
    (∀ i, ∃ j, R.rel i j) ∧ (s.without N).Alike .exact R (s'.without N) := by
  constructor
  · intro h
    refine ⟨h.exists_rel, h.frames, fun {i j} hij => ?_, fun {i j} hij => ?_⟩
    · rw [around_without, around_without]
      exact h.around hij
    · rw [size_without, size_without]
      exact (h.aligned hij).2
  · rintro ⟨hpaired, h⟩
    refine ⟨fun i _ => hpaired i, fun k => ?_, fun {i j} hij name hname => ?_, fun {i j} hij => ?_⟩
    · obtain ⟨j, hj⟩ : ∃ j : Nat, R.rel (s.frames.size + k) j := hpaired _
      have haligned := h.aligned hj
      rw [size_without, size_without] at haligned
      have hle : s.frames.size ≤ s.frames.size + k := Nat.le_add_right ..
      have hj' : j = s'.frames.size + k := by
        have := haligned hle
        omega
      exact hj' ▸ hj
    · rw [← s.binding_without i hname, ← s'.binding_without j hname]
      have hframes := h.frames hij
      unfold binding
      match (s.without N).frames[i]?, (s'.without N).frames[j]?, hframes with
      | none, none, _ => exact .none
      | some f, some g, hfg => exact Option.rel_some_some.mp hfg name
    · have haround := h.around hij
      rwa [around_without, around_without] at haround

/-! ### Changes on one side -/

theorem sameBut_refl (N : Set String) (s : Store) : s.SameBut N .identity s :=
  sameBut_iff.mpr ⟨fun i => ⟨i, rfl⟩, (s.without N).alike_refl .exact⟩

/-- Binding a name in `N`, in any frame and to any value. -/
theorem SameBut.define (h : s.SameBut N R s') {name : String} (hname : name ∈ N) (j : FrameId)
    (v : Value) : s.SameBut N R (s'.define j name v) := by
  rw [sameBut_iff, s'.without_define_of_mem j hname v]
  exact sameBut_iff.mp h

/-- The pairing in which frames that are yet to be made have one more frame in front of them on the
right. -/
def SameBut.later (h : s.SameBut N R s') : Pairing where
  rel := fun (i j : Nat) => (i < s.frames.size ∧ R.rel i j) ∨
    (s.frames.size ≤ i ∧ i + (s'.frames.size + 1) = j + s.frames.size)
  right_unique := by
    rintro i j k (⟨hi, hij⟩ | ⟨hi, hij⟩) (⟨hi', hik⟩ | ⟨hi', hik⟩)
    · exact R.right_unique hij hik
    · omega
    · omega
    · exact Nat.add_right_cancel (hij.symm.trans hik)
  left_unique := by
    rintro i j k (⟨hi, hik⟩ | ⟨hi, hik⟩) (⟨hj, hjk⟩ | ⟨hj, hjk⟩)
    · exact R.left_unique hik hjk
    · have := (h.aligned hik).1
      omega
    · have := (h.aligned hjk).1
      omega
    · exact Nat.add_right_cancel (hik.trans hjk.symm)

/-- Making a frame that is none of the other store, whose functions captured frames that exist. -/
theorem SameBut.push (h : s.SameBut N R s')
    (hcaptured : ∀ {i : FrameId} {f : Frame} {name : String} {g : Closure}, s.frames[i]? = some f →
      f.get? name = some (.function g) → g.frame < s.frames.size) (f : Frame) :
    s.SameBut N h.later (s'.push f) := by
  have hmissing {i j : Nat} (hi : s.frames.size ≤ i)
      (hij : i + (s'.frames.size + 1) = j + s.frames.size) :
      s.frames[i]? = none ∧ (s'.push f).frames[j]? = none := by
    refine ⟨Array.getElem?_eq_none hi, Array.getElem?_eq_none ?_⟩
    rw [size_push]
    omega
  have hlater : R.restrict (· < s.frames.size) ≤ h.later := fun _ _ hij => .inl ⟨hij.2, hij.1⟩
  refine ⟨fun i hi => ?_, fun k => .inr ⟨Nat.le_add_right .., ?_⟩, ?_, ?_⟩
  · obtain ⟨j, hij⟩ := h.paired i hi
    exact ⟨j, .inl ⟨hi, hij⟩⟩
  · rw [size_push]
    omega
  · rintro i j (⟨hi, hij⟩ | ⟨hi, hij⟩) name hname
    · have hj := (h.aligned hij).1.mp hi
      have hbinding : (s'.push f).binding j name = s'.binding j name := by
        rw [binding, binding, frames_push, if_neg (Nat.ne_of_lt hj)]
      rw [hbinding]
      refine option_rel_imp (fun v w hv hvw => ?_) (h.bindings hij name hname)
      refine (hvw.restrict fun k hk => ?_).mono hlater
      obtain ⟨g, rfl, rfl⟩ := Value.exists_of_mem_frame? hk
      obtain ⟨_, hframe, hget⟩ := Option.bind_eq_some_iff.mp hv
      exact hcaptured hframe hget
    · obtain ⟨hleft, hright⟩ := hmissing hi hij
      rw [binding, binding, hleft, hright]
      exact .none
  · rintro i j (⟨hi, hij⟩ | ⟨hi, hij⟩)
    · have hj := (h.aligned hij).1.mp hi
      rw [around_push, if_neg (Nat.ne_of_lt hj)]
      exact option_rel_imp (fun o q ho hoq => .inl ⟨Nat.lt_trans (lt_of_around ho) hi, hoq⟩)
        (h.around hij)
    · obtain ⟨hleft, hright⟩ := hmissing hi hij
      rw [Store.around, Store.around, hleft, hright]
      exact .none

end Store

/-! ### Regions -/

theorem Closure.Alike.allNames_eq {f g : Closure} (h : f.Alike .exact R g) : f.names = g.names := by
  have hbody := h.body
  rw [Block.erase_exact, Block.erase_exact] at hbody
  rw [Closure.names, Closure.names, h.names_eq, hbody]

theorem Expr.Makes.names_eq {l : Expr} {g : Closure} (h : l.Makes g) : l.names = g.names := by
  cases l with
  | function t ps b =>
    obtain ⟨rfl, rfl⟩ := h
    rfl
  | _ => exact h.elim

namespace Store

variable {P : FrameId → Prop}

/-- What names outside of `N` lead to in one store has counterparts in the other. -/
theorem Region.sameBut (h : s.Region P (· ∉ N) (Value.Avoids N P)) (hs : s.SameBut N R s') :
    s'.Region (fun j => ∃ i, R.rel i j ∧ P i) (· ∉ N)
      (Value.Avoids N fun j => ∃ i, R.rel i j ∧ P i) := by
  refine ⟨?_, ?_, fun j hj => ?_⟩
  · rintro j g name w ⟨i, hij, hi⟩ hg hname hw
    have hbindings := hs.bindings hij name hname
    rw [binding_of_getElem?_eq_some hg, hw] at hbindings
    match hv : s.binding i name, hbindings with
    | some v, .some hvw =>
      obtain ⟨f, hf, hget⟩ := Option.bind_eq_some_iff.mp hv
      have havoids := h.bound hi hf hname hget
      cases hvw with
      | function halike => exact ⟨halike.allNames_eq ▸ havoids.1, _, halike.frame, havoids.2⟩
      | _ => trivial
  · rintro j p ⟨i, hij, hi⟩ hp
    have haround := hs.around hij
    rw [hp] at haround
    match ho : s.around i, haround with
    | some o, .some hop => exact ⟨o, hop, h.around hi ho⟩
  · have hfresh := hs.fresh (j - s'.frames.size)
    rw [Nat.add_sub_cancel' hj] at hfresh
    exact ⟨_, hfresh, h.fresh _ (Nat.le_add_right _ _)⟩

end Store

/-- What can be reached from the frame mentions no name in `N`. -/
theorem Program.NeverMentions.avoids {frame : FrameId} {p : Program}
    (h : p.NeverMentions N s frame) :
    Store.Avoids N (fun i => s.Reaches [frame] i ∨ s.frames.size ≤ i) s s := by
  refine ⟨Store.region_reaches fun i f name v hi hf _ hv => ?_, fun _ _ _ => rfl⟩
  cases v with
  | function g => exact ⟨h.functions hi hf hv, .inl (.captured hi hf hv)⟩
  | _ => trivial

end

/-- **Bindings that are not mentioned never matter.** In two stores that are the same but for the
bindings of some names, a program that does not mention them, nor calls a function that can, has the
same outcome in a frame and in its counterpart: the same error, equal values, or functions of the same
code that captured counterparts. The stores that it leaves are the same but for the bindings of these
names, and in both of them these are what they were. -/
theorem unmentioned_bindings_irrelevant {N : Set String} {R : Pairing} {m m' : Machine}
    (hm : m.store.SameBut N R m'.store) {i j : FrameId} (hij : R.rel i j) {p : Program}
    (hp : p.NeverMentions N m.store i) (depth : Nat) :
    let x := p.eval depth i m
    let y := p.eval depth j m'
    Option.Rel (Value.Alike .exact R) x.1 y.1 ∧ x.2.store.SameBut N R y.2.store ∧
      m.store.Spares N x.2.store ∧ m'.store.Spares N y.2.store := by
  intro x y
  have hs := hp.avoids
  have hs' : Store.Avoids N _ m'.store m'.store := ⟨hs.region.sameBut hm, fun _ _ _ => rfl⟩
  have hi : m.store.Reaches [i] i ∨ m.store.frames.size ≤ i := .inl (.root (List.mem_cons_self ..))
  obtain ⟨hx, hxs⟩ := Program.eval_without hs hi hp.program depth
  obtain ⟨hy, hys⟩ := Program.eval_without hs' ⟨i, hij, hi⟩ hp.program depth
  -- With the bindings left out, the two stores are alike.
  obtain ⟨hpaired, halike⟩ := Store.sameBut_iff.mp hm
  have hon : (m.without N).store.Alike .exact R (m'.without N).store := halike
  obtain ⟨R', hgrows, hvalue, hstore⟩ := p.eval_alike depth rfl hij hon
  rw [Pairing.eq_of_le hgrows.le hpaired, hx, hy] at hvalue hstore
  exact ⟨hvalue, Store.sameBut_iff.mpr ⟨hpaired, hstore⟩, hxs.spared, hys.spared⟩

/-- A function that was made in a call, beside a name that is bound anew at the top, where it is now a
function of a frame that was not there, and in the frame of that call, where it hides the other. -/
theorem unmentioned_bindings_irrelevant_hidden :
    let q := (parse "let n = 2; let z = 5; let c = fn(x) \x7b fn(y) \x7b x + y + n \x7d \x7d(1);").program
    let p := (parse "let d = c(3); d * n").program
    let m : Machine := .on (q.eval 1 Store.rootFrame (.on .root)).2.store
    let t := Token.endOfInput 0
    let g : Closure := ⟨0, [], .mk t [.expression t (.identifier ⟨t, "z"⟩)], 2⟩
    let m' : Machine := .on (((m.store.push (.empty (some 1))).define 2 "z" .null).define 0 "z"
      (.function g) |>.define 1 "z" (.boolean true))
    let x := p.eval 1 Store.rootFrame m
    x.1.map Value.render = some "12" ∧ p.NeverMentions {"z"} m.store Store.rootFrame ∧
      ∃ R : Pairing, R.rel Store.rootFrame Store.rootFrame ∧ m.store.SameBut {"z"} R m'.store ∧
        let y := p.eval 1 Store.rootFrame m'
        Option.Rel (Value.Alike .exact R) x.1 y.1 ∧ x.2.store.SameBut {"z"} R y.2.store ∧
          m.store.Spares {"z"} x.2.store ∧ m'.store.Spares {"z"} y.2.store := by
  intro q p m t g m' x
  have hx : x.1.map Value.render = some "12" := by decide +kernel
  have hp : p.NeverMentions {"z"} m.store Store.rootFrame := by
    have hnames : ∀ l ∈ q.literals, ∀ name ∈ l.names, name ≠ "z" := by decide +kernel
    obtain ⟨hbinds, _⟩ := Program.eval_madeOf (Statement.closed_allLiterals q.statements) 1
      Store.rootFrame (fun l hl => hl) (m := .on .root) Store.Binds.root
    have hprogram : ∀ name ∈ p.names, name ≠ "z" := by decide +kernel
    refine ⟨hprogram, fun _ hf hget name hname => ?_⟩
    obtain ⟨l, hl, hmakes⟩ := hbinds hf hget
    exact hnames l hl name (hmakes.names_eq ▸ hname)
  have hroot : Reached [.frame none] .root := Reached.step .start .create trivial
  have hframe : Store.rootFrame < Store.root.frames.size := by decide
  have hs : Reached _ m.store := hroot.step (.run 1 Store.rootFrame q) hframe
  have hscoped := scoped_of_replay hs.replay.1 hs.replay.2
  have hz : "z" ∈ ({"z"} : Set String) := rfl
  have hpush := (Store.sameBut_refl {"z"} m.store).push hscoped.captured (.empty (some 1))
  have hm : m.store.SameBut {"z"} _ m'.store :=
    ((hpush.define hz 2 .null).define hz 0 (.function g)).define hz 1 (.boolean true)
  have hthere : Store.rootFrame < m.store.frames.size := by decide +kernel
  have hij : (Store.sameBut_refl {"z"} m.store).later.rel Store.rootFrame Store.rootFrame :=
    Or.inl ⟨hthere, rfl⟩
  exact ⟨hx, hp, _, hij, hm, unmentioned_bindings_irrelevant hm hij hp 1⟩

end LetLang
