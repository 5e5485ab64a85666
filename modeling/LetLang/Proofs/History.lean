import LetLang.Proofs.Likeness
import LetLang.Proofs.Writes

/-! Frames as the history of what was written to them.

The frames of a store come about by two kinds of writes: a frame is made inside of another one, or
of none, and a name is bound in a frame. What can be looked up follows from the list of all writes,
the history. The link of a frame is the one that it was made with; a name is bound in a frame to the
last value that it was bound to there (`replay_links`, `get?_replay`).

If every link leads to a frame made earlier (`Fits`), the links from a frame on make up a chain that
ends, and looking up a name searches this chain (`lookup_of_replay`). -/
namespace LetLang

namespace Write

/-- The frames after a write. -/
def apply (fs : Array Frame) : Write → Array Frame
  | frame outer => fs.push (.empty outer)
  | binding i name v => fs.modify i fun f => f.set name v

/-- The link of the frame that is made, if one is. -/
def link? : Write → Option (Option FrameId)
  | frame outer => some outer
  | binding .. => none

/-- The value that the name is bound to in frame `i`, if it is. -/
def bound? (i : FrameId) (name : String) : Write → Option Value
  | frame _ => none
  | binding j n v => if j = i ∧ n = name then some v else none

end Write

/-- The frames after some writes. -/
def replay (fs : Array Frame) (ws : List Write) : Array Frame := ws.foldl Write.apply fs

/-- The links of the frames that are made, in order. -/
def links (ws : List Write) : List (Option FrameId) := ws.filterMap Write.link?

/-- The values that a name is bound to in a frame, in order. -/
def bound (ws : List Write) (i : FrameId) (name : String) : List Value :=
  ws.filterMap (Write.bound? i name)

/-! ### Histories that fit -/

/-- If the value is a function, it captured one of the first `size` frames. -/
def Value.Within (size : Nat) : Value → Prop
  | .function g => g.frame < size
  | _ => True

/-- The write speaks of the first `size` frames only. -/
def Write.Fits (size : Nat) : Write → Prop
  | .frame outer => ∀ o, outer = some o → o < size
  | .binding i _ v => i < size ∧ v.Within size

/-- Each write speaks only of the first `size` frames and of those that the writes before it have
made. -/
def Fits (size : Nat) : List Write → Prop
  | [] => True
  | w :: ws => w.Fits size ∧ Fits (size + w.link?.toList.length) ws

theorem Value.Within.mono {v : Value} {n m : Nat} (h : v.Within n) (hnm : n ≤ m) : v.Within m := by
  cases v with
  | function g => exact Nat.lt_of_lt_of_le h hnm
  | _ => trivial

theorem links_cons (w : Write) (ws : List Write) :
    links (w :: ws) = w.link?.toList ++ links ws := by
  cases w <;> rfl

theorem replay_append (fs : Array Frame) (ws ws' : List Write) :
    replay fs (ws ++ ws') = replay (replay fs ws) ws' := List.foldl_append

theorem fits_append {n : Nat} {ws ws' : List Write} :
    Fits n (ws ++ ws') ↔ Fits n ws ∧ Fits (n + (links ws).length) ws' := by
  induction ws generalizing n with
  | nil => exact (true_and _).symm.to_iff
  | cons w ws ih =>
    rw [List.cons_append, Fits, Fits, ih, links_cons, List.length_append, and_assoc, Nat.add_assoc]

/-! ### Links and bindings -/

section
variable {fs : Array Frame}

/-- Binding names moves no frame, so the links are those that the frames were made with. -/
theorem replay_links (fs : Array Frame) (ws : List Write) :
    (replay fs ws).toList.map Frame.outer = fs.toList.map Frame.outer ++ links ws := by
  induction ws generalizing fs with
  | nil => exact (List.append_nil _).symm
  | cons w ws ih =>
    have hw : (w.apply fs).toList.map Frame.outer =
        fs.toList.map Frame.outer ++ w.link?.toList := by
      cases w with
      | frame outer => simp [Write.apply, Write.link?, Frame.empty]
      | binding i name v =>
        refine List.ext_getElem? fun k => ?_
        simp only [Write.apply, Write.link?, Option.toList_none, List.append_nil, List.getElem?_map,
          Array.getElem?_toList, Array.getElem?_modify]
        split
        · cases fs[k]? <;> rfl
        · rfl
    rw [replay, List.foldl_cons, ← replay, ih, hw, links_cons, List.append_assoc]

theorem size_apply (fs : Array Frame) (w : Write) :
    (w.apply fs).size = fs.size + w.link?.toList.length := by
  cases w <;> simp [Write.apply, Write.link?]

theorem size_replay (fs : Array Frame) (ws : List Write) :
    (replay fs ws).size = fs.size + (links ws).length := by
  have h := congrArg List.length (replay_links fs ws)
  simpa using h

/-- A frame keeps its link. -/
theorem outer_replay {i : FrameId} {f : Frame} (hf : fs[i]? = some f) (ws : List Write) :
    ∃ f' : Frame, (replay fs ws)[i]? = some f' ∧ f'.outer = f.outer := by
  have hlinks := congrArg (·[i]?) (replay_links fs ws)
  have hi : i < (fs.toList.map Frame.outer).length := by
    simpa using (Array.getElem?_eq_some_iff.mp hf).1
  simp only [List.getElem?_append_left hi, List.getElem?_map, Array.getElem?_toList, hf] at hlinks
  exact Option.map_eq_some_iff.mp hlinks

/-- A name is bound in a frame to the last value that was written, or as before. -/
theorem get?_replay {ws : List Write} (h : Fits fs.size ws) (i : FrameId) (name : String) :
    ((replay fs ws)[i]?.bind fun f => f.get? name) =
      (bound ws i name).getLast?.or (fs[i]?.bind fun f => f.get? name) := by
  induction ws generalizing fs with
  | nil => rfl
  | cons w ws ih =>
    obtain ⟨hw, hws⟩ := h
    rw [← size_apply] at hws
    rw [replay, List.foldl_cons, ← replay, ih hws]
    cases w with
    | frame outer =>
      have hempty : ((fs.push (.empty outer))[i]?.bind fun f => f.get? name) =
          fs[i]?.bind fun f => f.get? name := by
        rw [Array.getElem?_push]
        split
        · rename_i hi
          rw [hi, Array.getElem?_eq_none (Nat.le_refl _)]
          rfl
        · rfl
      exact congrArg (Option.or _) hempty
    | binding j n v =>
      have hset : ((fs.modify j fun f => f.set n v)[i]?.bind fun f => f.get? name) =
          if j = i ∧ n = name then some v else fs[i]?.bind fun f => f.get? name := by
        rw [Array.getElem?_modify]
        by_cases hj : j = i
        · subst hj
          rw [if_pos rfl, Array.getElem?_eq_getElem hw.1]
          simp only [Option.map_some, Option.bind_some, Frame.get?_set, true_and, eq_comm]
        · rw [if_neg hj, if_neg fun h => hj h.1]
      show Option.or _ ((fs.modify j fun f => f.set n v)[i]?.bind fun f => f.get? name) = _
      rw [hset, bound, bound, List.filterMap_cons, Write.bound?]
      by_cases hbound : j = i ∧ n = name
      · simp only [if_pos hbound, List.getLast?_cons]
        cases (List.filterMap (Write.bound? i name) ws).getLast? <;> rfl
      · simp only [if_neg hbound]

end

/-! ### Sound frames -/

/-- Links lead to earlier frames, and functions that are bound captured frames that exist. -/
structure Sound (fs : Array Frame) : Prop where
  earlier : ∀ {i : FrameId} {f : Frame} {o : FrameId}, fs[i]? = some f → f.outer = some o → o < i
  captured : ∀ {i : FrameId} {f : Frame} {name : String} {v : Value}, fs[i]? = some f →
    f.get? name = some v → v.Within fs.size

theorem sound_empty : Sound #[] := ⟨nofun, nofun⟩

theorem Sound.lookup {s : Store} (h : Sound s.frames) (frame : FrameId) {name : String} {v : Value}
    (hv : s.lookup frame name = some v) : v.Within s.frames.size := by
  obtain ⟨_, _, hf, hget⟩ := Store.exists_bound_of_lookup frame hv
  exact h.captured hf hget

theorem Sound.apply {fs : Array Frame} (h : Sound fs) {w : Write} (hw : w.Fits fs.size) :
    Sound (w.apply fs) := by
  cases w with
  | frame outer =>
    refine ⟨fun {i f o} hf ho => ?_, fun {i f name v} hf hv => ?_⟩
    · rw [Write.apply, Array.getElem?_push] at hf
      split at hf
      · rename_i hi
        cases hf
        exact hi ▸ hw o ho
      · exact h.earlier hf ho
    · rw [Write.apply, Array.getElem?_push] at hf
      rw [Write.apply, Array.size_push]
      split at hf
      · cases hf
        cases hv
      · exact (h.captured hf hv).mono (Nat.le_succ _)
  | binding j n w =>
    refine ⟨fun {i f o} hf ho => ?_, fun {i f name v} hf hv => ?_⟩
    · rw [Write.apply, Array.getElem?_modify] at hf
      split at hf
      · obtain ⟨g, hg, rfl⟩ := Option.map_eq_some_iff.mp hf
        exact h.earlier hg ho
      · exact h.earlier hf ho
    · rw [Write.apply, Array.getElem?_modify] at hf
      rw [Write.apply, Array.size_modify]
      split at hf
      · obtain ⟨g, hg, rfl⟩ := Option.map_eq_some_iff.mp hf
        rw [Frame.get?_set] at hv
        split at hv
        · cases hv
          exact hw.2
        · exact h.captured hg hv
      · exact h.captured hf hv

theorem Sound.replay {fs : Array Frame} (h : Sound fs) {ws : List Write} (hws : Fits fs.size ws) :
    Sound (replay fs ws) := by
  induction ws generalizing fs with
  | nil => exact h
  | cons w ws ih =>
    obtain ⟨hw, hws⟩ := hws
    rw [← size_apply] at hws
    exact ih (h.apply hw) hws

/-! ### Chains -/

/-- The frame `i`, the frame that its link leads to, and so on, to a frame that lies in no other. -/
inductive Chain (ls : List (Option FrameId)) : FrameId → List FrameId → Prop where
  | root {i : FrameId} (h : ls[i]? = some none) : Chain ls i [i]
  | inner {i o : FrameId} {c : List FrameId} (h : ls[i]? = some (some o)) (hc : Chain ls o c) :
      Chain ls i (i :: c)

/-- Each link leads to a frame that was made earlier. -/
theorem links_lt {n : Nat} {ws : List Write} (h : Fits n ws) {k : Nat} {o : FrameId}
    (hk : (links ws)[k]? = some (some o)) : o < n + k := by
  induction ws generalizing n k with
  | nil => cases hk
  | cons w ws ih =>
    obtain ⟨hw, hws⟩ := h
    cases w with
    | frame outer =>
      cases k with
      | zero => exact hw o (Option.some.inj hk)
      | succ k =>
        have hlt := ih hws (k := k) hk
        rw [Nat.add_comm k 1, ← Nat.add_assoc]
        exact hlt
    | binding i name v => exact ih hws hk

/-- From every frame a chain leads out. -/
theorem exists_chain {ws : List Write} (h : Fits 0 ws) (i : FrameId) (hi : i < (links ws).length) :
    ∃ c, Chain (links ws) i c := by
  obtain ⟨outer, houter⟩ : ∃ outer, (links ws)[i]? = some outer :=
    ⟨_, List.getElem?_eq_getElem hi⟩
  cases outer with
  | none => exact ⟨[i], .root houter⟩
  | some o =>
    have ho : o < i := Nat.zero_add i ▸ links_lt h houter
    obtain ⟨c, hc⟩ := exists_chain h o (Nat.lt_trans ho hi)
    exact ⟨i :: c, .inner houter hc⟩
termination_by i

/-- What is looked up is the last value that the name was bound to in the first frame of the chain
in which it was bound at all. -/
theorem lookup_of_replay {s : Store} {ws : List Write} (hs : s.frames = replay #[] ws)
    (h : Fits 0 ws) {i : FrameId} {c : List FrameId} (hc : Chain (links ws) i c) (name : String) :
    s.lookup i name = c.findSome? fun j => (bound ws j name).getLast? := by
  have hfits : Fits (#[] : Array Frame).size ws := h
  have hget (j : FrameId) :
      (s.frames[j]?.bind fun f => f.get? name) = (bound ws j name).getLast? := by
    rw [hs, get?_replay hfits]
    exact Option.or_none
  have hlinks : s.frames.toList.map Frame.outer = links ws := by
    rw [hs, replay_links]
    rfl
  -- No link is cut off, since each leads to an earlier frame.
  have haround {j : FrameId} {outer : Option FrameId} (hj : (links ws)[j]? = some outer) :
      s.around j = outer := by
    have hframe := hj
    rw [← hlinks, List.getElem?_map, Array.getElem?_toList] at hframe
    obtain ⟨f, hf, rfl⟩ := Option.map_eq_some_iff.mp hframe
    rw [Store.around, hf, Option.bind_some]
    cases houter : f.outer with
    | none => rfl
    | some o =>
      rw [houter] at hj
      have ho : o < j := Nat.zero_add j ▸ links_lt h hj
      exact Option.filter_some_pos (decide_eq_true ho)
  induction hc with
  | root hi =>
    rw [Store.lookup_eq, hget, haround hi, List.findSome?_cons]
    cases (bound ws _ name).getLast? <;> rfl
  | inner hi _ ih =>
    rw [Store.lookup_eq, hget, haround hi, List.findSome?_cons, Option.bind_some, ih]
    cases (bound ws _ name).getLast? <;> rfl

end LetLang
