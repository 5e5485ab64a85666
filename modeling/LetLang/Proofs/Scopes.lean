import LetLang.Parsing
import LetLang.Proofs.Confinement
import LetLang.Proofs.Recording

/-! Scopes are well founded, and what is bound last in the innermost scope counts.

A store is worked on by making frames, by binding names, by running programs in frames and by
calling functions. Whatever has been done, and however it ended, the frames are those that the
history of all writes makes, and the history fits: links lead to earlier frames and never change,
and functions that are bound captured frames that exist (`Reached.replay`). So what is looked up can
be told from the history alone (`scopes_well_founded`).

A call makes a frame inside of the captured one. Where it is made does not matter: before the body
runs, a parameter has the last argument that was passed under its name, and every other name means
what it means in the captured frame (`Machine.lookup_entering`). -/
namespace LetLang

/-! ### What can be done to a store -/

/-- The result of a run, unless it is interrupted. -/
def Run.result? {α : Type} (r : Run α) (m : Machine) : Option α :=
  match r m with
  | .ok a _ => some a
  | .error _ _ => none

/-- What can be done to a store: making a frame, inside of no other or of one, binding a name,
running a program and calling a function. -/
inductive Operation where
  | create
  | enclose (i : FrameId)
  | bind (i : FrameId) (name : String) (v : Value)
  | run (depth : Nat) (i : FrameId) (p : Program)
  | apply (depth : Nat) (g : Closure) (arguments : List Value)

namespace Operation

/-- The store after an operation, however it ends. -/
def perform (s : Store) : Operation → Store
  | create => s.push (.empty none)
  | enclose i => s.push (.empty (some i))
  | bind i name v => s.define i name v
  | run depth i p => (p.eval depth i (.on s)).2.store
  | apply depth g vs => ((g.call depth vs).after (.on s)).store

/-- The values that an operation gives. -/
def values (s : Store) : Operation → List Value
  | run depth i p => (p.eval depth i (.on s)).1.toList
  | apply depth g vs => ((g.call depth vs).result? (.on s)).toList
  | _ => []

/-- What an operation writes. -/
def writes (s : Store) : Operation → List Write
  | create => [.frame none]
  | enclose i => [.frame (some i)]
  | bind i name v => [.binding i name v]
  | run depth i p =>
    Statement.writesAll (Closure.call depth) (Closure.writes depth) i p.statements (.on s)
  | apply depth g vs => g.writes depth vs (.on s)

/-- The operation is about the first `size` frames and about functions that captured them. -/
def Allowed (size : Nat) : Operation → Prop
  | create => True
  | enclose i => i < size
  | bind i _ v => i < size ∧ v.Within size
  | run _ i _ => i < size
  | apply _ g vs => g.frame < size ∧ ∀ v ∈ vs, v.Within size

end Operation

/-- The store `s` comes from one without frames by operations on what is there, which have written
`h`. -/
inductive Reached : (h : List Write) → (s : Store) → Prop where
  | start : Reached [] .empty
  | step {h : List Write} {s : Store} (hs : Reached h s) (op : Operation)
      (hop : op.Allowed s.frames.size) : Reached (h ++ op.writes s) (op.perform s)

/-! ### Histories of operations -/

section
variable {α : Type} {n : Nat} {P : Nat → α → Prop} {r : Run α} {l : Log} {m : Machine}

/-- The frames after a run are those that its log makes. -/
theorem Run.Records.after (h : r.Records n P l) (hn : n ≤ m.store.frames.size)
    (hm : Sound m.store.frames) :
    Fits m.store.frames.size (l m) ∧ (r.after m).store.frames = replay m.store.frames (l m) := by
  obtain ⟨hfits, hleaves⟩ := h m hn hm
  refine ⟨hfits, ?_⟩
  unfold Run.after
  cases hresult : r m with
  | ok a m' =>
    rw [hresult] at hleaves
    exact hleaves.1
  | error i m' =>
    rw [hresult] at hleaves
    cases i with
    | returned v => exact hleaves.1
    | _ => exact hleaves

/-- What a run says of its result, in terms of the frames that it leaves. -/
theorem Run.Records.leaves (h : r.Records n P l) (hn : n ≤ m.store.frames.size)
    (hm : Sound m.store.frames) : Leaves P (r.after m).store.frames (r m) :=
  (h.after hn hm).2 ▸ (h m hn hm).2

theorem Run.Leaves.result {fs : Array Frame} (h : Leaves P fs (r m)) :
    ∀ a ∈ (r.result? m).toList, P fs.size a := by
  intro a ha
  rw [Option.mem_toList, Run.result?] at ha
  cases hresult : r m with
  | ok b m' =>
    rw [hresult] at h ha
    cases ha
    exact h.2
  | error i m' =>
    rw [hresult] at ha
    cases ha

end

/-- The value of a program is what its statements come to, or what they return. -/
theorem Program.within_of_leaves {depth : Nat} {i : FrameId} {p : Program} {m : Machine}
    {fs : Array Frame}
    (h : Run.Leaves (fun k v => Value.Within k v) fs
      (Statement.evalAll (Closure.call depth) i .null p.statements m)) :
    ∀ v ∈ (p.eval depth i m).1.toList, v.Within fs.size := by
  intro v hv
  rw [Option.mem_toList, Program.eval] at hv
  generalize Statement.evalAll (Closure.call depth) i .null p.statements m = x at h hv
  cases x with
  | ok w m' =>
    cases hv
    exact h.2
  | error k m' =>
    cases k with
    | returned w =>
      cases hv
      exact h.2
    | failed e =>
      cases hv
      trivial
    | exhausted => cases hv

/-- What an operation writes fits the frames that are there and makes those that it leaves, and the
values that it gives captured some of these. -/
theorem Operation.records {s : Store} (hs : Sound s.frames) (op : Operation)
    (hop : op.Allowed s.frames.size) :
    Fits s.frames.size (op.writes s) ∧ (op.perform s).frames = replay s.frames (op.writes s) ∧
      ∀ v ∈ op.values s, v.Within (op.perform s).frames.size := by
  cases op with
  | create => exact ⟨⟨nofun, trivial⟩, rfl, nofun⟩
  | enclose i => exact ⟨⟨fun _ ho => Option.some.inj ho ▸ hop, trivial⟩, rfl, nofun⟩
  | bind i name v => exact ⟨⟨hop, trivial⟩, rfl, nofun⟩
  | run depth i p =>
    have hnull : Value.null.Within s.frames.size := trivial
    have hrecords : (Statement.evalAll (Closure.call depth) i .null p.statements).Records
        s.frames.size (fun k v => v.Within k) _ :=
      (recording_rules hop).statements (Closure.call_records depth) (Nat.le_refl _) .null hnull
        p.statements trivial
    have hle : s.frames.size ≤ (Machine.on s).store.frames.size := Nat.le_refl _
    obtain ⟨hfits, hframes⟩ := hrecords.after hle hs
    have hvalues := Program.within_of_leaves (hrecords.leaves hle hs)
    rw [← Program.eval_after] at hframes hvalues
    exact ⟨hfits, hframes, hvalues⟩
  | apply depth g vs =>
    have hrecords := Closure.call_records depth g vs s.frames.size hop.1 hop.2
    have hle : s.frames.size ≤ (Machine.on s).store.frames.size := Nat.le_refl _
    obtain ⟨hfits, hframes⟩ := hrecords.after hle hs
    exact ⟨hfits, hframes, (hrecords.leaves hle hs).result⟩

/-- The frames that are reached are those that the history makes. -/
theorem Reached.replay {h : List Write} {s : Store} (hr : Reached h s) :
    s.frames = replay #[] h ∧ Fits 0 h := by
  induction hr with
  | start => exact ⟨rfl, trivial⟩
  | @step h s _ op hop ih =>
    obtain ⟨hframes, hfits⟩ := ih
    have hempty : Fits (#[] : Array Frame).size h := hfits
    have hsound : Sound s.frames := hframes ▸ sound_empty.replay hempty
    obtain ⟨hfits', hframes', _⟩ := op.records hsound hop
    have hsize : s.frames.size = 0 + (links h).length := by
      rw [hframes, size_replay]
      rfl
    rw [fits_append, replay_append, ← hframes, ← hsize]
    exact ⟨hframes', hfits, hfits'⟩

/-! ### Looking up names -/

/-- The scopes of the store `s`, which the writes `h` have made. -/
structure Scoped (h : List Write) (s : Store) : Prop where
  /-- The link of a frame is the one that it was made with. -/
  link : ∀ {i : FrameId} {f : Frame}, s.frames[i]? = some f → (links h)[i]? = some f.outer
  /-- Links lead to frames that were made earlier. -/
  earlier : ∀ {i : FrameId} {f : Frame} {o : FrameId}, s.frames[i]? = some f → f.outer = some o →
    o < i
  /-- Functions that are bound captured frames that exist. -/
  captured : ∀ {i : FrameId} {f : Frame} {name : String} {g : Closure}, s.frames[i]? = some f →
    f.get? name = some (.function g) → g.frame < s.frames.size
  /-- From every frame a chain leads out. -/
  chain : ∀ i, i < s.frames.size → ∃ c, Chain (links h) i c
  /-- What is looked up was bound last in the innermost frame of the chain in which the name was
  ever bound. -/
  lookup : ∀ {i : FrameId} {c : List FrameId}, Chain (links h) i c → ∀ name,
    s.lookup i name = c.findSome? fun j => (bound h j name).getLast?

theorem scoped_of_replay {h : List Write} {s : Store} (hs : s.frames = replay #[] h)
    (hfits : Fits 0 h) : Scoped h s := by
  have hempty : Fits (#[] : Array Frame).size h := hfits
  have hsound : Sound s.frames := hs ▸ sound_empty.replay hempty
  have hsize : s.frames.size = (links h).length := by
    rw [hs, size_replay]
    exact Nat.zero_add _
  refine ⟨fun {i f} hf => ?_, hsound.earlier, fun hf hg => hsound.captured hf hg, fun i hi => ?_,
    fun hc name => lookup_of_replay hs hfits hc name⟩
  · have hlinks := replay_links #[] h
    rw [← hs] at hlinks
    have hget := congrArg (·[i]?) hlinks
    simp only [List.getElem?_map, Array.getElem?_toList, hf] at hget
    exact hget.symm
  · exact exists_chain hfits i (hsize ▸ hi)

/-! ### Call frames -/

/-- Of the bindings that are made one after another, the last one of a name counts. -/
theorem Frame.get?_foldl (bs : List (Identifier × Value)) (f : Frame) (name : String) :
    (bs.foldl (fun f b => f.set b.1.name b.2) f).get? name =
      ((bs.reverse.find? fun b => b.1.name == name).map Prod.snd).or (f.get? name) := by
  induction bs generalizing f with
  | nil => rfl
  | cons b bs ih =>
    rw [List.foldl_cons, ih, get?_set, List.reverse_cons, List.find?_append, List.find?_singleton]
    cases List.find? (fun b => b.1.name == name) bs.reverse with
    | some c => rfl
    | none =>
      by_cases hname : b.1.name = name
      · simp [hname]
      · simp [hname, Ne.symm hname]

/-- In the frame of a call, a parameter has the last argument under its name. -/
theorem Frame.get?_ofCall (g : Closure) (vs : List Value) (name : String) :
    (ofCall g vs).get? name =
      ((g.parameters.zip vs).reverse.find? fun b => b.1.name == name).map Prod.snd := by
  rw [ofCall, get?_foldl]
  exact Option.or_none

/-- In a list that is read from behind, the last element that passes the test is found. -/
theorem find?_reverse_of_last {α : Type} {p : α → Bool} {as : List α} {k : Nat} {a : α}
    (hk : as[k]? = some a) (ha : p a = true)
    (hlast : ∀ j b, k < j → as[j]? = some b → p b = false) : as.reverse.find? p = some a := by
  obtain ⟨hlt, hget⟩ := List.getElem?_eq_some_iff.mp hk
  have hsplit : as = as.take k ++ a :: as.drop (k + 1) := by
    rw [← hget, ← List.drop_eq_getElem_cons, List.take_append_drop]
  have hnone : (as.drop (k + 1)).reverse.find? p = none := by
    refine List.find?_eq_none.mpr fun b hb => ?_
    obtain ⟨j, hj⟩ := List.mem_iff_getElem?.mp (List.mem_reverse.mp hb)
    rw [List.getElem?_drop] at hj
    rw [hlast _ b (by omega) hj]
    exact Bool.false_ne_true
  rw [hsplit, List.reverse_append, List.reverse_cons, List.append_assoc, List.find?_append, hnone]
  simp [ha]

/-- How a function is called on as many values as it has parameters, from whatever frame. -/
structure CallFrame (depth : Nat) (m : Machine) (g : Closure) (vs : List Value) : Prop where
  /-- The body runs in a new frame, up to a `return`. -/
  runs : g.call (depth + 1) vs m =
    Run.catchReturn (g.body.eval (Closure.call depth) m.store.frames.size) (m.entering g vs)
  /-- A parameter is bound to the argument at the last position that carries its name. -/
  parameter : ∀ {k : Nat} {i : Identifier} {v : Value}, g.parameters[k]? = some i →
    vs[k]? = some v → (∀ j i', k < j → g.parameters[j]? = some i' → i'.name ≠ i.name) →
    (m.entering g vs).store.lookup m.store.frames.size i.name = some v
  /-- Every other name means what it means in the captured frame. -/
  other : ∀ {name : String}, (∀ i ∈ g.parameters, i.name ≠ name) →
    (m.entering g vs).store.lookup m.store.frames.size name = m.store.lookup g.frame name

/-- A new frame changes nothing in the frames that are there. -/
theorem Store.lookup_push (s : Store) (f : Frame) (i : FrameId) (hi : i < s.frames.size)
    (name : String) : (s.push f).lookup i name = s.lookup i name := by
  rw [lookup_eq, lookup_eq, frames_push, around_push, if_neg (Nat.ne_of_lt hi),
    if_neg (Nat.ne_of_lt hi)]
  cases ho : s.around i with
  | none => rfl
  | some o =>
    have hlt := lt_of_around ho
    rw [Option.bind_some, Option.bind_some, s.lookup_push f o (Nat.lt_trans hlt hi)]
termination_by i

/-- Names in the frame of a call: parameters first, then the captured frame. -/
theorem Machine.lookup_entering (m : Machine) (g : Closure) (vs : List Value) (name : String) :
    (m.entering g vs).store.lookup m.store.frames.size name =
      ((Frame.ofCall g vs).get? name).or (m.store.lookup g.frame name) := by
  show (m.store.push (.ofCall g vs)).lookup m.store.frames.size name = _
  rw [Store.lookup_eq, Store.frames_push, Store.around_push, if_pos rfl, if_pos rfl,
    Frame.outer_ofCall, Option.bind_some]
  cases (Frame.ofCall g vs).get? name with
  | some v => rfl
  | none =>
    by_cases hg : g.frame < m.store.frames.size
    · have hlink : (some g.frame).filter (fun o => decide (o < m.store.frames.size)) =
          some g.frame := Option.filter_some_pos (decide_eq_true hg)
      rw [hlink]
      exact Store.lookup_push m.store _ g.frame hg name
    · have hnone : m.store.lookup g.frame name = none := by
        rw [Store.lookup, Array.getElem?_eq_none (Nat.le_of_not_lt hg)]
      have hlink : (some g.frame).filter (fun o => decide (o < m.store.frames.size)) = none := by
        simpa using hg
      rw [hlink, hnone]
      rfl

theorem callFrame (depth : Nat) (m : Machine) {g : Closure} {vs : List Value}
    (h : g.arity = vs.length) : CallFrame depth m g vs := by
  refine ⟨Closure.call_succ_apply h depth m, fun {k i v} hi hv hlast => ?_, fun {name} hname => ?_⟩
  · have hpair : (g.parameters.zip vs)[k]? = some (i, v) :=
      List.getElem?_zip_eq_some.mpr ⟨hi, hv⟩
    have hfind : (g.parameters.zip vs).reverse.find? (fun b => b.1.name == i.name) =
        some (i, v) := by
      refine find?_reverse_of_last hpair (beq_self_eq_true _) fun j b hj hb => ?_
      exact beq_false_of_ne (hlast j b.1 hj (List.getElem?_zip_eq_some.mp hb).1)
    rw [Machine.lookup_entering, Frame.get?_ofCall, hfind]
    rfl
  · have hnone : (g.parameters.zip vs).reverse.find? (fun b => b.1.name == name) = none := by
      refine List.find?_eq_none.mpr fun b hb => ?_
      have hmem := (List.of_mem_zip (List.mem_reverse.mp hb)).1
      simpa using hname b.1 hmem
    rw [Machine.lookup_entering, Frame.get?_ofCall, hnone]
    rfl

/-- **Scopes are well founded, and what is bound last in the innermost scope counts.** Whatever has
been done to a store, by making frames, binding names, running programs and calling functions: each
frame has the link that it was made with, which leads to an earlier frame, and keeps it; functions
captured frames that exist, and so do those that the next operation gives; and a name that is looked
up has the value that it was bound to last in the innermost frame of the chain in which it was bound
at all. It was so after each of the writes that made the frames.

In the frame of a call, before the body runs, a parameter has the argument at the last position that
carries its name, and any other name means what it means in the captured frame. -/
theorem scopes_well_founded {h : List Write} {s : Store} (hr : Reached h s) :
    s.frames = replay #[] h ∧ Scoped h s ∧
      (∀ h' s', h' <+: h → s'.frames = replay #[] h' → Scoped h' s') ∧
      (∀ op : Operation, op.Allowed s.frames.size →
        (∀ (i : FrameId) (f : Frame), s.frames[i]? = some f →
          ∃ f' : Frame, (op.perform s).frames[i]? = some f' ∧ f'.outer = f.outer) ∧
        ∀ v ∈ op.values s, v.Within (op.perform s).frames.size) ∧
      ∀ (depth : Nat) (m : Machine) (g : Closure) (vs : List Value), g.arity = vs.length →
        CallFrame depth m g vs := by
  obtain ⟨hframes, hfits⟩ := hr.replay
  have hscoped := scoped_of_replay hframes hfits
  have hempty : Fits (#[] : Array Frame).size h := hfits
  have hsound : Sound s.frames := hframes ▸ sound_empty.replay hempty
  refine ⟨hframes, hscoped, fun h' s' hpre hs' => ?_, fun op hop => ?_,
    fun depth m g vs harity => callFrame depth m harity⟩
  · obtain ⟨ws, rfl⟩ := hpre
    exact scoped_of_replay hs' (fits_append.mp hfits).1
  · obtain ⟨_, hafter, hvalues⟩ := op.records hsound hop
    refine ⟨fun i f hf => ?_, hvalues⟩
    rw [hafter]
    exact outer_replay hf (op.writes s)

/-- A call of a function whose parameters have the same name. -/
theorem scopes_well_founded_call :
    let p := (parse "let f = fn(x, x) \x7b x \x7d; f(1, 2)").program
    let op := Operation.run 1 Store.rootFrame p
    let h := [Write.frame none] ++ op.writes .root
    Reached h (op.perform .root) ∧ links h = [none, some 0] ∧ Scoped h (op.perform .root) ∧
      ((op.perform .root).lookup 1 "x").map Value.render = some "2" := by
  intro p op h
  have hroot : Reached [.frame none] .root := Reached.step .start .create trivial
  have hframe : Store.rootFrame < Store.root.frames.size := by decide
  have hr : Reached h (op.perform .root) := hroot.step op hframe
  have hlinks : links h = [none, some 0] := by decide +kernel
  have hlookup : ((op.perform .root).lookup 1 "x").map Value.render = some "2" := by
    decide +kernel
  exact ⟨hr, hlinks, (scopes_well_founded hr).2.1, hlookup⟩

end LetLang
