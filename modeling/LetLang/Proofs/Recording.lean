import LetLang.Proofs.History
import LetLang.Proofs.Judgements
import LetLang.Proofs.Runs

/-! Logs tell what becomes of the frames.

The frames that a run leaves are those that its log makes of the frames at its start, and the log
fits them, whether or not the run is interrupted (`Run.Records`). This is so of evaluation
(`recording_rules`) and of calls (`Closure.call_records`). -/
namespace LetLang

/-! ### Runs and their logs -/

namespace Run

variable {α β : Type} {n : Nat} {P : Nat → α → Prop} {Q : Nat → β → Prop} {r : Run α} {l : Log}

/-- The run has left the frames `fs`, with a result that is as `P` says of so many frames, or with
a value that is returned and captured one of them. -/
def Leaves (P : Nat → α → Prop) (fs : Array Frame) :
    EStateM.Result Interrupt Machine α → Prop
  | .ok a m => m.store.frames = fs ∧ P fs.size a
  | .error (.returned v) m => m.store.frames = fs ∧ v.Within fs.size
  | .error _ m => m.store.frames = fs

/-- On frames that are sound, and at least `n` in number, the log fits and makes the frames that
the run leaves. -/
def Records (n : Nat) (P : Nat → α → Prop) (r : Run α) (l : Log) : Prop :=
  ∀ m : Machine, n ≤ m.store.frames.size → Sound m.store.frames →
    Fits m.store.frames.size (l m) ∧ Leaves P (replay m.store.frames (l m)) (r m)

theorem records_pure {a : α} (h : ∀ k, n ≤ k → P k a) : (pure a : Run α).Records n P .nothing :=
  fun _ hn _ => ⟨trivial, rfl, h _ hn⟩

theorem records_returned {v : Value} (h : v.Within n) :
    (throw (.returned v) : Run α).Records n P .nothing :=
  fun _ hn _ => ⟨trivial, rfl, h.mono hn⟩

theorem records_fail (e : RuntimeError) : (fail e : Run α).Records n P .nothing :=
  fun _ _ _ => ⟨trivial, rfl⟩

theorem records_record (e : Event) : (record e).Records n (fun _ _ => True) .nothing :=
  fun _ _ _ => ⟨trivial, rfl, trivial⟩

theorem records_lookup (frame : FrameId) (name : String) :
    (lookup frame name).Records n (fun k v => v.Within k) .nothing := by
  intro m _ hm
  rw [lookup_apply]
  cases h : m.store.lookup frame name with
  | some v => exact ⟨trivial, rfl, hm.lookup frame h⟩
  | none => exact ⟨trivial, rfl⟩

theorem records_define {frame : FrameId} (hframe : frame < n) (name : String) {v : Value}
    (hv : v.Within n) :
    (define frame name v).Records n (fun _ _ => True) fun _ => [.binding frame name v] :=
  fun _ hn _ => ⟨⟨⟨Nat.lt_of_lt_of_le hframe hn, hv.mono hn⟩, trivial⟩, rfl, trivial⟩

theorem records_newFunction (ps : List Identifier) (b : Block) {frame : FrameId}
    (hframe : frame < n) :
    (newFunction ps b frame).Records n (fun k v => v.Within k) .nothing :=
  fun _ hn _ => ⟨trivial, rfl, Nat.lt_of_lt_of_le hframe hn⟩

/-- A run and what follows on its result. -/
theorem Records.bind {f : α → Run β} {g : α → Log} (hr : r.Records n P l)
    (hf : ∀ a k, n ≤ k → P k a → (f a).Records k Q (g a)) :
    (r >>= f).Records n Q (r.follow l g) := by
  intro m hn hm
  obtain ⟨hfits, hleaves⟩ := hr m hn hm
  rw [bind_apply, follow]
  cases hresult : r m with
  | ok a m' =>
    rw [hresult] at hleaves
    obtain ⟨hframes, ha⟩ := hleaves
    have hsound : Sound m'.store.frames := hframes ▸ hm.replay hfits
    have hsize : m'.store.frames.size = m.store.frames.size + (links (l m)).length := by
      rw [hframes, size_replay]
    rw [← hframes] at ha
    obtain ⟨hfits', hleaves'⟩ :=
      hf a m'.store.frames.size (by omega) ha m' (Nat.le_refl _) hsound
    rw [fits_append, replay_append, ← hframes, ← hsize]
    exact ⟨⟨hfits, hfits'⟩, hleaves'⟩
  | error i m' =>
    rw [hresult] at hleaves
    rw [List.append_nil]
    exact ⟨hfits, by cases i <;> exact hleaves⟩

theorem Records.catchReturn {r : Run Value} (hr : r.Records n (fun k v => v.Within k) l) :
    (catchReturn r).Records n (fun k v => v.Within k) l := by
  intro m hn hm
  obtain ⟨hfits, hleaves⟩ := hr m hn hm
  refine ⟨hfits, ?_⟩
  rw [catchReturn_apply]
  cases hresult : r m with
  | ok v m' => rwa [hresult] at hleaves
  | error i m' =>
    rw [hresult] at hleaves
    cases i <;> exact hleaves

end Run

/-! ### Evaluation -/

/-- The judgement that a run leaves the frames that its log makes. -/
abbrev Run.recording : Judgement := fun n Q r l => r.Records n Q l

/-- Values captured frames that exist. -/
theorem recording_rules {frame : FrameId} {n : Nat} (hframe : frame < n) :
    Rules .none frame n Run.recording fun k v => v.Within k where
  pure h := Run.records_pure h
  bind hr hf := hr.bind hf
  record _ := Run.records_record _
  integer _ := trivial
  boolean _ := trivial
  null := trivial
  mono h hle := h.mono hle
  fail _ := Run.records_fail _
  lookup {_ i} _ _ := Run.records_lookup frame i.name
  function {_ _ ps b} hn _ := Run.records_newFunction ps b (Nat.lt_of_lt_of_le hframe hn)
  define {_ _ i _ _} hn _ hv := Run.records_define (Nat.lt_of_lt_of_le hframe hn) i.name hv
  returned _ _ hv := Run.records_returned hv

/-! ### Calls -/

/-- Binding names one after another in the last frame. -/
theorem replay_push (fs : Array Frame) (f : Frame) (bs : List (Identifier × Value)) :
    replay (fs.push f) (bs.map fun b => .binding fs.size b.1.name b.2) =
      fs.push (bs.foldl (fun f b => f.set b.1.name b.2) f) := by
  induction bs generalizing f with
  | nil => rfl
  | cons b bs ih =>
    have hlast : (fs.push f).modify fs.size (fun f => f.set b.1.name b.2) =
        fs.push (f.set b.1.name b.2) := by
      refine Array.ext_getElem? fun k => ?_
      rw [Array.getElem?_modify, Array.getElem?_push, Array.getElem?_push]
      by_cases hk : k = fs.size
      · rw [if_pos hk.symm, if_pos hk, if_pos hk]
        rfl
      · rw [if_neg (Ne.symm hk), if_neg hk, if_neg hk]
    rw [List.map_cons, replay, List.foldl_cons, ← replay, Write.apply, hlast, ih]
    rfl

/-- Passing arguments makes the frame that the body of the function runs in. -/
theorem replay_passing (fs : Array Frame) (g : Closure) (vs : List Value) :
    replay fs (g.passing vs fs.size) = fs.push (.ofCall g vs) :=
  replay_push fs (.empty (some g.frame)) (g.parameters.zip vs)

theorem fits_passing {g : Closure} {vs : List Value} {n : Nat} (hg : g.frame < n)
    (hvs : ∀ v ∈ vs, v.Within n) : Fits n (g.passing vs n) := by
  refine ⟨fun o ho => Option.some.inj ho ▸ hg, ?_⟩
  have hbindings (bs : List (Identifier × Value)) (hbs : ∀ b ∈ bs, b.2.Within n) :
      Fits (n + 1) (bs.map fun b => .binding n b.1.name b.2) := by
    induction bs with
    | nil => trivial
    | cons b bs ih =>
      obtain ⟨hb, hbs⟩ := List.forall_mem_cons.mp hbs
      exact ⟨⟨Nat.lt_succ_self n, hb.mono (Nat.le_succ n)⟩, ih hbs⟩
  exact hbindings _ fun b hb => hvs b.2 (List.of_mem_zip hb).2

/-- Calls leave the frames that their log makes, at any depth. -/
theorem Closure.call_records (depth : Nat) :
    Calling.Obeys Run.recording (fun k v => v.Within k) (Closure.call depth)
      (Closure.writes depth) := by
  refine Closure.call_obeys (fun _ _ => Run.records_fail _) (fun _ _ _ _ => ⟨trivial, rfl⟩)
    (fun {call log} hcall g vs n hg hvs m hn hm => ?_) depth
  have hpassing : Fits m.store.frames.size (g.passing vs m.store.frames.size) :=
    fits_passing (Nat.lt_of_lt_of_le hg hn) fun v hv => (hvs v hv).mono hn
  have hentered : (m.entering g vs).store.frames =
      replay m.store.frames (g.passing vs m.store.frames.size) :=
    (replay_passing m.store.frames g vs).symm
  have hsize : m.store.frames.size + (links (g.passing vs m.store.frames.size)).length =
      (m.entering g vs).store.frames.size := by
    rw [hentered, size_replay]
  have hframe : m.store.frames.size < (m.entering g vs).store.frames.size :=
    Nat.lt_of_lt_of_eq (Nat.lt_succ_self _) (Array.size_push ..).symm
  have hbody := (recording_rules hframe).block hcall (Nat.le_refl _) g.body trivial
  obtain ⟨hfits, hleaves⟩ := Run.Records.catchReturn hbody (m.entering g vs) (Nat.le_refl _)
    (hentered ▸ hm.replay hpassing)
  rw [Closure.enter_apply, Closure.entryWrites, fits_append, replay_append, hsize, ← hentered]
  exact ⟨⟨hpassing, hfits⟩, hleaves⟩

end LetLang
