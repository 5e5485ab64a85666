import Mathlib.Data.List.Forall2
import LetLang.Proofs.Correspondence

/-! Stores that are alike.

Two stores are alike along a pairing of their frames if evaluation cannot tell them apart: paired
frames bind the same names to like values, and lookup goes on from them in paired frames. Functions
are alike if an erasure sees the same parameters and the same body, and the captured frames are
paired.

This is correspondence with two changes. The tokens of parameters are compared like all others, so
that an erasure that forgets nothing compares functions exactly; and paired frames may be missing
on both sides, if they lie equally far behind the ends of the stores, so that every store is like
itself (`Store.alike_refl`). Where an erasure forgets the tokens of names and paired frames exist,
the two are the same (`Store.corresponds_iff_alike`).

Frames that are made on both sides at the same time are paired with each other. What is alike stays
so along every larger pairing. -/
namespace LetLang

/-! ### Values, frames and stores -/

/-- Functions with the same parameters and the same body up to what `v` forgets, and captured
paired frames. -/
structure Closure.Alike (v : Erasure) (R : Pairing) (f g : Closure) : Prop where
  parameters : f.parameters.map (Identifier.erase v) = g.parameters.map (Identifier.erase v)
  body : f.body.erase v = g.body.erase v
  frame : R.rel f.frame g.frame

/-- Equal values, or functions that are alike. -/
inductive Value.Alike (v : Erasure) (R : Pairing) : Value → Value → Prop where
  | integer (n : Int64) : Alike v R (.integer n) (.integer n)
  | boolean (b : Bool) : Alike v R (.boolean b) (.boolean b)
  | null : Alike v R .null .null
  | function {f g : Closure} (h : f.Alike v R g) : Alike v R (.function f) (.function g)
  | error (e : RuntimeError) : Alike v R (.error e) (.error e)

/-- The same names are bound, to values that are alike. -/
def Frame.Alike (v : Erasure) (R : Pairing) (f g : Frame) : Prop :=
  ∀ name, Option.Rel (Value.Alike v R) (f.get? name) (g.get? name)

/-- Paired frames are alike and lie in paired frames or in none; or they are both missing, equally
far behind the ends of the stores. -/
structure Store.Alike (v : Erasure) (R : Pairing) (s s' : Store) : Prop where
  frames : ∀ {i j}, R.rel i j → Option.Rel (Frame.Alike v R) s.frames[i]? s'.frames[j]?
  around : ∀ {i j}, R.rel i j → Option.Rel R.rel (s.around i) (s'.around j)
  aligned : ∀ {i j : Nat}, R.rel i j → s.frames.size ≤ i → i + s'.frames.size = j + s.frames.size

variable {v : Erasure} {R R' R'' : Pairing}

theorem Closure.Alike.mono {f g : Closure} (h : f.Alike v R g) (hR : R ≤ R') : f.Alike v R' g :=
  ⟨h.parameters, h.body, hR _ _ h.frame⟩

theorem Value.Alike.mono {x y : Value} (h : x.Alike v R y) (hR : R ≤ R') : x.Alike v R' y := by
  cases h with
  | integer n => exact .integer n
  | boolean b => exact .boolean b
  | null => exact .null
  | function h => exact .function (h.mono hR)
  | error e => exact .error e

theorem option_rel_imp {α β : Type} {r r' : α → β → Prop} {x : Option α} {y : Option β}
    (h : ∀ a b, x = some a → r a b → r' a b) (hxy : Option.Rel r x y) : Option.Rel r' x y := by
  cases hxy with
  | some hab => exact .some (h _ _ rfl hab)
  | none => exact .none

theorem option_rel_mono {α β : Type} {r r' : α → β → Prop} (h : ∀ a b, r a b → r' a b)
    {x : Option α} {y : Option β} (hxy : Option.Rel r x y) : Option.Rel r' x y :=
  option_rel_imp (fun a b _ => h a b) hxy

theorem option_rel_map {α β γ δ : Type} {r : α → β → Prop} {q : γ → δ → Prop} {f : α → γ}
    {g : β → δ} {x : Option α} {y : Option β} (hxy : Option.Rel r x y)
    (h : ∀ a b, r a b → q (f a) (g b)) : Option.Rel q (x.map f) (y.map g) := by
  cases hxy with
  | some hab => exact .some (h _ _ hab)
  | none => exact .none

theorem Frame.Alike.mono {f g : Frame} (h : f.Alike v R g) (hR : R ≤ R') : f.Alike v R' g :=
  fun name => option_rel_mono (fun _ _ hxy => hxy.mono hR) (h name)

theorem Value.Alike.truthy_eq {x y : Value} (h : x.Alike v R y) : x.truthy = y.truthy := by
  cases h <;> rfl

theorem Closure.Alike.names_eq {f g : Closure} (h : f.Alike v R g) :
    f.parameters.map Identifier.name = g.parameters.map Identifier.name := by
  have hnames := congrArg (List.map Identifier.name) h.parameters
  rwa [Identifier.map_name_erase, Identifier.map_name_erase] at hnames

theorem Closure.Alike.arity_eq {f g : Closure} (h : f.Alike v R g) : f.arity = g.arity := by
  have hlength := congrArg List.length h.names_eq
  rwa [List.length_map, List.length_map] at hlength

/-- Values that are alike print the same text, if the digits of numbers are kept. -/
theorem Value.Alike.render_eq (hv : v.KeepsDigits) {x y : Value} (h : x.Alike v R y) :
    x.render = y.render := by
  cases h with
  | @function f g h =>
    show f.render = g.render
    unfold Closure.render
    rw [h.names_eq, ← Block.erase_render hv f.body, h.body, Block.erase_render hv g.body]
  | _ => rfl

/-! ### Bindings -/

theorem Frame.Alike.set {f g : Frame} (h : f.Alike v R g) {x y : Value} (hxy : x.Alike v R y)
    (name : String) : (f.set name x).Alike v R (g.set name y) := by
  intro other
  rw [get?_set, get?_set]
  split
  · exact .some hxy
  · exact h other

/-- Calls of like functions on like arguments make like frames. -/
theorem Frame.alike_ofCall {f g : Closure} (h : f.Alike v R g) {xs ys : List Value}
    (hxs : List.Forall₂ (Value.Alike v R) xs ys) :
    (Frame.ofCall f xs).Alike v R (Frame.ofCall g ys) := by
  unfold ofCall
  have hempty : (Frame.empty f.frame).Alike v R (Frame.empty g.frame) := fun _ => .none
  have hnames := h.names_eq
  revert hempty hnames
  generalize Frame.empty _ = frame, Frame.empty _ = frame', f.parameters = ps, g.parameters = qs
  intro hframe hnames
  induction hxs generalizing frame frame' ps qs with
  | nil => simpa using hframe
  | cons hx _ ih =>
    cases ps with
    | nil =>
      obtain rfl := List.map_eq_nil_iff.mp hnames.symm
      exact hframe
    | cons p ps =>
      obtain ⟨q, qs, rfl, hname, hnames⟩ := List.map_eq_cons_iff.mp hnames.symm
      rw [List.zip_cons_cons, List.zip_cons_cons, List.foldl_cons, List.foldl_cons, hname]
      exact ih _ _ _ _ (hframe.set hx p.name) hnames.symm

theorem Frame.outer_ofCall (f : Closure) (xs : List Value) :
    (Frame.ofCall f xs).outer = some f.frame := by
  unfold ofCall
  suffices h : ∀ (bs : List (Identifier × Value)) (frame : Frame),
      (bs.foldl (fun frame b => frame.set b.1.name b.2) frame).outer = frame.outer from h _ _
  intro bs
  induction bs with
  | nil => intro frame; rfl
  | cons b bs ih => intro frame; exact ih _

/-- Only arguments are bound in the frame of a call. -/
theorem Frame.mem_of_get?_ofCall {g : Closure} {vs : List Value} {name : String} {v : Value}
    (h : (Frame.ofCall g vs).get? name = some v) : v ∈ vs := by
  suffices hfold : ∀ (bs : List (Identifier × Value)) (f : Frame),
      (bs.foldl (fun f b => f.set b.1.name b.2) f).get? name = some v →
        f.get? name = some v ∨ ∃ b ∈ bs, b.2 = v by
    obtain hempty | ⟨b, hb, rfl⟩ := hfold _ _ h
    · cases hempty
    · exact (List.of_mem_zip hb).2
  intro bs
  induction bs with
  | nil => exact fun f hf => .inl hf
  | cons b bs ih =>
    intro f hf
    obtain hset | ⟨c, hc, hcv⟩ := ih _ hf
    · rw [get?_set] at hset
      split at hset
      · exact .inr ⟨b, List.mem_cons_self .., Option.some.inj hset⟩
      · exact .inl hset
    · exact .inr ⟨c, List.mem_cons_of_mem _ hc, hcv⟩

namespace Store

variable {s s' : Store} {i j : FrameId}

/-! ### Frames of a store -/

/-- A name is bound in the frame at hand, or it is looked up in the one around it. -/
theorem lookup_eq (s : Store) (i : FrameId) (name : String) :
    s.lookup i name =
      match s.frames[i]?.bind fun f => f.get? name with
      | some x => some x
      | none => (s.around i).bind fun o => s.lookup o name := by
  rw [lookup, around]
  cases s.frames[i]? with
  | none => rfl
  | some f =>
    simp only [Option.bind_some]
    cases f.get? name with
    | some x => rfl
    | none =>
      cases f.outer with
      | none => rfl
      | some o => by_cases ho : o < i <;> simp [Option.filter, ho]

theorem lt_of_around {o : FrameId} (h : s.around i = some o) : o < i := by
  obtain ⟨f, _, hf⟩ := Option.bind_eq_some_iff.mp h
  simpa using (Option.filter_eq_some_iff.mp hf).2

/-- Whatever is looked up is bound in some frame. -/
theorem exists_bound_of_lookup {name : String} {x : Value} (i : FrameId)
    (h : s.lookup i name = some x) :
    ∃ (j : FrameId) (f : Frame), s.frames[j]? = some f ∧ f.get? name = some x := by
  rw [lookup_eq] at h
  split at h
  · rename_i y hy
    cases h
    obtain ⟨f, hf, hget⟩ := Option.bind_eq_some_iff.mp hy
    exact ⟨i, f, hf, hget⟩
  · obtain ⟨o, ho, hx⟩ := Option.bind_eq_some_iff.mp h
    have hlt := lt_of_around ho
    exact exists_bound_of_lookup o hx
termination_by i

theorem frames_define (s : Store) (i k : FrameId) (name : String) (x : Value) :
    (s.define i name x).frames[k]? =
      if i = k then s.frames[k]?.map fun f => f.set name x else s.frames[k]? := by
  rw [Store.define, Array.getElem?_modify]

theorem size_define (s : Store) (i : FrameId) (name : String) (x : Value) :
    (s.define i name x).frames.size = s.frames.size := Array.size_modify

/-- Binding a name moves no frame. -/
theorem around_define (s : Store) (i k : FrameId) (name : String) (x : Value) :
    (s.define i name x).around k = s.around k := by
  rw [around, around, frames_define]
  split
  · cases s.frames[k]? <;> rfl
  · rfl

theorem size_push (s : Store) (f : Frame) : (s.push f).frames.size = s.frames.size + 1 :=
  Array.size_push ..

theorem frames_push (s : Store) (f : Frame) (i : FrameId) :
    (s.push f).frames[i]? = if i = s.frames.size then some f else s.frames[i]? :=
  Array.getElem?_push

theorem around_push (s : Store) (f : Frame) (i : FrameId) :
    (s.push f).around i =
      if i = s.frames.size then f.outer.filter (· < i) else s.around i := by
  rw [around, around, frames_push]
  split <;> rfl

/-! ### Likeness of stores -/

/-- Stores that are alike agree on names. -/
theorem Alike.lookup (h : s.Alike v R s') (i j : FrameId) (hij : R.rel i j) (name : String) :
    Option.Rel (Value.Alike v R) (s.lookup i name) (s'.lookup j name) := by
  have hbound : Option.Rel (Value.Alike v R) (s.frames[i]?.bind fun f => f.get? name)
      (s'.frames[j]?.bind fun f => f.get? name) := by
    match s.frames[i]?, s'.frames[j]?, h.frames hij with
    | some f, some g, hfg => exact Option.rel_some_some.mp hfg name
    | none, none, _ => exact .none
  rw [lookup_eq, lookup_eq]
  match s.frames[i]?.bind fun f => f.get? name, s'.frames[j]?.bind fun f => f.get? name, hbound with
  | some x, some y, hxy => exact hxy
  | none, none, _ =>
    match ho : s.around i, s'.around j, h.around hij with
    | none, none, _ => exact .none
    | some o, some p, hop =>
      have hlt := lt_of_around ho
      exact Alike.lookup h o p (Option.rel_some_some.mp hop) name
termination_by i

/-- Binding a name in paired frames to values that are alike. -/
theorem Alike.define (h : s.Alike v R s') (hij : R.rel i j) {x y : Value} (hxy : x.Alike v R y)
    (name : String) : (s.define i name x).Alike v R (s'.define j name y) := by
  refine ⟨?_, ?_, ?_⟩
  · intro k l hkl
    have hsame : i = k ↔ j = l :=
      ⟨fun hi => R.right_unique hij (hi ▸ hkl), fun hj => R.left_unique hij (hj ▸ hkl)⟩
    rw [frames_define, frames_define]
    by_cases hi : i = k
    · rw [if_pos hi, if_pos (hsame.mp hi)]
      match s.frames[k]?, s'.frames[l]?, h.frames hkl with
      | some f, some g, hfg => exact .some ((Option.rel_some_some.mp hfg).set hxy name)
      | none, none, _ => exact .none
    · rw [if_neg hi, if_neg fun hj => hi (hsame.mpr hj)]
      exact h.frames hkl
  · intro k l hkl
    rw [around_define, around_define]
    exact h.around hkl
  · intro k l hkl
    rw [size_define, size_define]
    exact h.aligned hkl

/-- Paired frames both exist, or neither does. -/
theorem Alike.lt_size_iff {i j : Nat} (h : s.Alike v R s') (hij : R.rel i j) :
    i < s.frames.size ↔ j < s'.frames.size := by
  have hframes := h.frames hij
  constructor
  · intro hi
    rw [Array.getElem?_eq_getElem hi] at hframes
    exact Nat.lt_of_not_le fun hj => nomatch Array.getElem?_eq_none hj ▸ hframes
  · intro hj
    rw [Array.getElem?_eq_getElem hj] at hframes
    exact Nat.lt_of_not_le fun hi => nomatch Array.getElem?_eq_none hi ▸ hframes

theorem Alike.eq_size_iff {i j : Nat} (h : s.Alike v R s') (hij : R.rel i j) :
    i = s.frames.size ↔ j = s'.frames.size := by
  have := h.aligned hij
  have := h.lt_size_iff hij
  omega

/-- The frames that come next are paired with no others, and can be paired with each other. -/
def Alike.next (h : s.Alike v R s') : Pairing :=
  R.insert s.frames.size s'.frames.size (fun _ hj => (h.eq_size_iff hj).mp rfl)
    (fun _ hi => (h.eq_size_iff hi).mpr rfl)

theorem Alike.le_next (h : s.Alike v R s') : R ≤ h.next := fun _ _ hij => .inl hij

theorem Alike.next_rel (h : s.Alike v R s') : h.next.rel s.frames.size s'.frames.size :=
  .inr ⟨rfl, rfl⟩

/-- New frames that are alike and lie in paired frames are paired with each other. -/
theorem Alike.push (h : s.Alike v R s') {f g : Frame} (hfg : f.Alike v R g)
    (houter : f.outer = some i) (houter' : g.outer = some j) (hij : R.rel i j) :
    (s.push f).Alike v h.next (s'.push g) := by
  have hnew : Option.Rel h.next.rel (f.outer.filter (· < s.frames.size))
      (g.outer.filter (· < s'.frames.size)) := by
    rw [houter, houter', Option.filter_some, Option.filter_some]
    by_cases hi : i < s.frames.size
    · rw [decide_eq_true hi, decide_eq_true ((h.lt_size_iff hij).mp hi)]
      exact .some (h.le_next i j hij)
    · rw [decide_eq_false hi, decide_eq_false fun hj => hi ((h.lt_size_iff hij).mpr hj)]
      exact .none
  refine ⟨?_, ?_, ?_⟩
  · intro k l hkl
    rw [frames_push, frames_push]
    obtain hkl | ⟨rfl, rfl⟩ := hkl
    · by_cases hk : k = s.frames.size
      · rw [if_pos hk, if_pos ((h.eq_size_iff hkl).mp hk)]
        exact .some (hfg.mono h.le_next)
      · rw [if_neg hk, if_neg fun hl => hk ((h.eq_size_iff hkl).mpr hl)]
        exact option_rel_mono (fun _ _ hfg' => hfg'.mono h.le_next) (h.frames hkl)
    · rw [if_pos rfl, if_pos rfl]
      exact .some (hfg.mono h.le_next)
  · intro k l hkl
    rw [around_push, around_push]
    obtain hkl | ⟨rfl, rfl⟩ := hkl
    · by_cases hk : k = s.frames.size
      · rw [if_pos hk, if_pos ((h.eq_size_iff hkl).mp hk), hk, (h.eq_size_iff hkl).mp hk]
        exact hnew
      · rw [if_neg hk, if_neg fun hl => hk ((h.eq_size_iff hkl).mpr hl)]
        exact option_rel_mono h.le_next (h.around hkl)
    · rw [if_pos rfl, if_pos rfl]
      exact hnew
  · intro k l hkl hk
    rw [size_push] at hk ⊢
    rw [size_push]
    obtain hkl | ⟨rfl, rfl⟩ := hkl
    · have := h.aligned hkl (by omega)
      omega
    · omega

end Store

/-! ### Pairings that grow -/

/-- A pairing grows, while stores do, only by frames that are new on both sides. -/
structure Pairing.Grows (R R' : Pairing) (s s' t t' : Store) : Prop where
  le : R ≤ R'
  left : s.frames.size ≤ t.frames.size
  right : s'.frames.size ≤ t'.frames.size
  new : ∀ {i j : Nat}, R'.rel i j → R.rel i j ∨
    ((s.frames.size ≤ i ∧ i < t.frames.size) ∧ s'.frames.size ≤ j ∧ j < t'.frames.size)

namespace Pairing

variable {s s' t t' u u' : Store}

theorem Grows.of_size_eq (R : Pairing) (h : t.frames.size = s.frames.size)
    (h' : t'.frames.size = s'.frames.size) : R.Grows R s s' t t' :=
  ⟨R.le_refl, Nat.le_of_eq h.symm, Nat.le_of_eq h'.symm, .inl⟩

theorem Grows.refl (R : Pairing) (s s' : Store) : R.Grows R s s' s s' := .of_size_eq R rfl rfl

theorem Grows.trans (h : R.Grows R' s s' t t') (h' : R'.Grows R'' t t' u u') :
    R.Grows R'' s s' u u' := by
  refine ⟨le_trans h.le h'.le, Nat.le_trans h.left h'.left, Nat.le_trans h.right h'.right, ?_⟩
  have := h.left
  have := h.right
  have := h'.left
  have := h'.right
  intro i j hij
  obtain hij | hnew := h'.new hij
  · obtain hij | hnew := h.new hij
    · exact .inl hij
    · exact .inr (by omega)
  · exact .inr (by omega)

theorem grows_next (h : s.Alike v R s') (f g : Frame) :
    R.Grows h.next s s' (s.push f) (s'.push g) := by
  refine ⟨h.le_next, ?_, ?_, ?_⟩
  · rw [Store.size_push]
    omega
  · rw [Store.size_push]
    omega
  · intro i j hij
    obtain hij | ⟨rfl, rfl⟩ := hij
    · exact .inl hij
    · rw [Store.size_push, Store.size_push]
      exact .inr (by omega)

/-- Each frame paired with itself. -/
def identity : Pairing where
  rel i j := i = j
  right_unique h h' := h.symm.trans h'
  left_unique h h' := h.trans h'.symm

/-- Where every frame has a counterpart, no more pairs can be added. -/
theorem eq_of_le (h : R ≤ R') (hpaired : ∀ i, ∃ j, R.rel i j) : R' = R := by
  have hrel : R'.rel = R.rel := by
    funext i j
    obtain ⟨k, hik⟩ := hpaired i
    exact propext ⟨fun hij => R'.right_unique (h i k hik) hij ▸ hik, h i j⟩
  cases R
  cases R'
  cases hrel
  rfl

/-- A pairing that pairs each frame with itself pairs it with no other. -/
theorem eq_identity (h : identity ≤ R) : R = identity := eq_of_le h fun i => ⟨i, rfl⟩

end Pairing

/-! ### A store and itself -/

theorem Value.alike_refl (v : Erasure) (x : Value) : x.Alike v .identity x := by
  cases x with
  | integer n => exact .integer n
  | boolean b => exact .boolean b
  | null => exact .null
  | function f => exact .function ⟨rfl, rfl, rfl⟩
  | error e => exact .error e

theorem option_rel_refl {α : Type} {r : α → α → Prop} (h : ∀ a, r a a) (x : Option α) :
    Option.Rel r x x := by
  cases x with
  | none => exact .none
  | some a => exact .some (h a)

theorem Frame.alike_refl (v : Erasure) (f : Frame) : f.Alike v .identity f :=
  fun _ => option_rel_refl (Value.alike_refl v) _

/-- Every store is like itself, frame by frame. -/
theorem Store.alike_refl (v : Erasure) (s : Store) : s.Alike v .identity s := by
  refine ⟨?_, ?_, ?_⟩
  · rintro i j rfl
    exact option_rel_refl (Frame.alike_refl v) _
  · rintro i j rfl
    exact option_rel_refl (fun _ => rfl) _
  · rintro i j rfl _
    rfl

theorem Value.Alike.trans {x y z : Value} (h : x.Alike v .identity y)
    (h' : y.Alike v .identity z) : x.Alike v .identity z := by
  cases h with
  | function h =>
    cases h' with
    | function h' =>
      exact .function ⟨h.parameters.trans h'.parameters, h.body.trans h'.body,
        h.frame.trans h'.frame⟩
  | _ => exact h'

theorem option_rel_trans {α : Type} {r : α → α → Prop} {x y z : Option α}
    (hxy : Option.Rel r x y) (hyz : Option.Rel r y z) (h : ∀ a b c, r a b → r b c → r a c) :
    Option.Rel r x z := by
  cases hxy with
  | none => exact hyz
  | some hab =>
    cases hyz with
    | some hbc => exact .some (h _ _ _ hab hbc)

theorem Frame.Alike.trans {f g k : Frame} (h : f.Alike v .identity g)
    (h' : g.Alike v .identity k) : f.Alike v .identity k :=
  fun name => option_rel_trans (h name) (h' name) fun _ _ _ => Value.Alike.trans

/-- Stores that are alike frame by frame. -/
theorem Store.Alike.trans {s t u : Store} (h : s.Alike v .identity t)
    (h' : t.Alike v .identity u) : s.Alike v .identity u := by
  have hsize {s t : Store} (h : s.Alike v .identity t) : s.frames.size = t.frames.size :=
    (h.eq_size_iff rfl).mp rfl
  refine ⟨?_, ?_, ?_⟩
  · rintro i j rfl
    exact option_rel_trans (h.frames rfl) (h'.frames rfl) fun _ _ _ => Frame.Alike.trans
  · rintro i j rfl
    exact option_rel_trans (h.around rfl) (h'.around rfl) fun _ _ _ => Eq.trans
  · rintro i j rfl _
    rw [hsize h, hsize h']

/-! ### Likeness and correspondence -/

/-- Of identifiers, printing shows the names. -/
theorem Identifier.map_erase_text_eq_iff {is js : List Identifier} :
    is.map (erase .text) = js.map (erase .text) ↔ is.map name = js.map name := by
  have hmap (is : List Identifier) :
      is.map (erase .text) = (is.map name).map fun n => ⟨.endOfInput 0, n⟩ := by
    rw [List.map_map]
    rfl
  constructor
  · intro h
    have hnames := congrArg (List.map name) h
    rwa [map_name_erase, map_name_erase] at hnames
  · intro h
    rw [hmap, hmap, h]

theorem Closure.corresponds_iff_alike {f g : Closure} :
    f.Corresponds .text R g ↔ f.Alike .text R g :=
  ⟨fun h => ⟨Identifier.map_erase_text_eq_iff.mpr h.parameters, h.body, h.frame⟩,
    fun h => ⟨Identifier.map_erase_text_eq_iff.mp h.parameters, h.body, h.frame⟩⟩

theorem Value.corresponds_iff_alike {x y : Value} :
    x.Corresponds .text R y ↔ x.Alike .text R y := by
  constructor
  · intro h
    cases h with
    | integer n => exact .integer n
    | boolean b => exact .boolean b
    | null => exact .null
    | function h => exact .function (Closure.corresponds_iff_alike.mp h)
    | error e => exact .error e
  · intro h
    cases h with
    | integer n => exact .integer n
    | boolean b => exact .boolean b
    | null => exact .null
    | function h => exact .function (Closure.corresponds_iff_alike.mpr h)
    | error e => exact .error e

theorem Frame.corresponds_iff_alike {f g : Frame} :
    f.Corresponds .text R g ↔ f.Alike .text R g :=
  ⟨fun h name => option_rel_mono (fun _ _ => Value.corresponds_iff_alike.mp) (h name),
    fun h name => option_rel_mono (fun _ _ => Value.corresponds_iff_alike.mpr) (h name)⟩

/-- Where only texts are compared and paired frames exist, to correspond is to be alike. -/
theorem Store.corresponds_iff_alike {s s' : Store} :
    s.Corresponds .text R s' ↔
      s.Alike .text R s' ∧ ∀ i j, R.rel i j → i < s.frames.size ∧ j < s'.frames.size := by
  constructor
  · intro h
    have hlt : ∀ i j, R.rel i j → i < s.frames.size ∧ j < s'.frames.size := by
      intro i j hij
      obtain ⟨f, g, hf, hg, _⟩ := h.frames hij
      exact ⟨(Array.getElem?_eq_some_iff.mp hf).1, (Array.getElem?_eq_some_iff.mp hg).1⟩
    refine ⟨⟨?_, h.around, fun hij hi => absurd (hlt _ _ hij).1 (Nat.not_lt_of_le hi)⟩, hlt⟩
    intro i j hij
    obtain ⟨f, g, hf, hg, hfg⟩ := h.frames hij
    rw [hf, hg]
    exact .some (Frame.corresponds_iff_alike.mp hfg)
  · rintro ⟨h, hlt⟩
    refine ⟨?_, h.around⟩
    intro i j hij
    obtain ⟨hi, hj⟩ := hlt i j hij
    have hfg := h.frames hij
    rw [Array.getElem?_eq_getElem hi, Array.getElem?_eq_getElem hj] at hfg
    exact ⟨_, _, Array.getElem?_eq_getElem hi, Array.getElem?_eq_getElem hj,
      Frame.corresponds_iff_alike.mpr (Option.rel_some_some.mp hfg)⟩

end LetLang
