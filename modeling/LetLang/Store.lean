import LetLang.Text.Quoted
import LetLang.Value

/-! Frames and the store that holds them.

A frame binds names to values and may lie inside another frame. The store numbers its frames
in the order in which they are made and never drops one, so that functions and frames can
refer to frames by number. A name is looked up in a frame, then in the frames around it; a
link is followed only to an older frame, so the walk ends. -/
namespace LetLang

/-! ### Frames -/

/-- The bindings made in one scope, and the frame around it. A name is bound at most once. -/
structure Frame where
  bindings : List (String × Value)
  outer : Option FrameId

namespace Frame

/-- A frame without bindings. -/
def empty (outer : Option FrameId) : Frame := ⟨[], outer⟩

/-- The value that a name is bound to in this frame. -/
def get? (f : Frame) (name : String) : Option Value := f.bindings.lookup name

/-- The frame in which `name` is bound to `v`, instead of whatever it was bound to. -/
def set (f : Frame) (name : String) (v : Value) : Frame :=
  { f with bindings := (name, v) :: f.bindings.filter fun b => b.1 != name }

/-- The bound names, in order. -/
def names (f : Frame) : List String := (f.bindings.map Prod.fst).mergeSort

/-- A frame at a glance: its names, and whether it lies in another frame. -/
def summary (f : Frame) : String :=
  "Environment \x7b names: [" ++ commaSeparated (f.names.map Text.quote) ++ "], has_outer: " ++
    (if f.outer.isSome then "true" else "false") ++ " \x7d"

/-- The frame in which the body of a function runs: its parameters are bound one after
another, and the frame of the function lies around it. -/
def ofCall (f : Closure) (arguments : List Value) : Frame :=
  (f.parameters.zip arguments).foldl (fun frame b => frame.set b.1.name b.2) (empty f.frame)

/-- The last binding of a name counts, and other names keep theirs. -/
theorem get?_set (f : Frame) (name other : String) (v : Value) :
    (f.set name v).get? other = if other = name then some v else f.get? other := by
  unfold get? set
  by_cases h : other = name
  · subst h
    simp
  · simp only [h, if_false]
    rw [List.lookup_cons, beq_false_of_ne h]
    induction f.bindings with
    | nil => rfl
    | cons b bs ih =>
      obtain ⟨n, w⟩ := b
      by_cases hn : n = name
      · subst hn
        simpa [List.lookup_cons, beq_false_of_ne h] using ih
      · by_cases ho : other = n
        · subst ho
          simp [hn]
        · simpa [hn, List.lookup_cons, beq_false_of_ne ho] using ih

@[simp] theorem outer_set (f : Frame) (name : String) (v : Value) :
    (f.set name v).outer = f.outer := rfl

end Frame

/-! ### The store -/

/-- All frames made so far, and how many functions have been made. -/
structure Store where
  frames : Array Frame
  functions : Nat

namespace Store

/-- A store without frames. -/
def empty : Store := ⟨#[], 0⟩

/-- The store with one more frame; its number is the number of frames before. -/
def push (s : Store) (f : Frame) : Store := { s with frames := s.frames.push f }

/-- Binds a name in one frame. -/
def define (s : Store) (frame : FrameId) (name : String) (v : Value) : Store :=
  { s with frames := s.frames.modify frame fun f => f.set name v }

/-- The value of a name in a frame or, if it is not bound there, in the frames around it. -/
def lookup (s : Store) (frame : FrameId) (name : String) : Option Value :=
  match s.frames[frame]? with
  | none => none
  | some f =>
    match f.get? name with
    | some v => some v
    | none =>
      match f.outer with
      | none => none
      | some outer => if outer < frame then s.lookup outer name else none
termination_by frame

/-- A frame of the store at a glance. -/
def summary (s : Store) (frame : FrameId) : String :=
  match s.frames[frame]? with
  | none => ""
  | some f => f.summary

/-- A store with one frame, which lies in no other, and its number. -/
def root : Store := empty.push (.empty none)

/-- The number of the frame in `root`. -/
def rootFrame : FrameId := 0

end Store

end LetLang
