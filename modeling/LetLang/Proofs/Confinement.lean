import LetLang.Proofs.Contracts

/-! Evaluation writes only the current frame.

Whatever is evaluated in a frame, and however it ends, the other frames that were there before
stay as they are, and in the frame itself only names that a `let` of the code binds outside all
function literals may get a binding or change theirs (`Store.Confined`). Calling a function
changes no frame that was there before (`Store.Untouched`): its body runs in a frame of its own.

The two statements depend on each other. Evaluation of a tree is confined if calls leave the
store untouched (`Store.confined_contract`), and calls do so because the body of a function is
confined to a frame that is new (`Closure.call_untouched`). -/
namespace LetLang

/-! ### Names bound by `let` -/

mutual

/-- The names that an expression may bind in the frame in which it is evaluated. -/
def Expr.letNames : Expr → List String
  | .identifier _ => []
  | .integer _ _ => []
  | .boolean _ _ => []
  | .unary _ _ e => e.letNames
  | .binary _ l _ r => l.letNames ++ r.letNames
  | .ifThen _ c b => c.letNames ++ b.letNames
  | .ifThenElse _ c b a => c.letNames ++ (b.letNames ++ a.letNames)
  | .function _ _ _ => []
  | .call _ f es => f.letNames ++ Expr.allLetNames es

/-- The names that a list of expressions may bind. -/
def Expr.allLetNames : List Expr → List String
  | [] => []
  | e :: es => e.letNames ++ Expr.allLetNames es

/-- The names that a block may bind; a block has no scope of its own. -/
def Block.letNames : Block → List String
  | .mk _ ss => Statement.allLetNames ss

/-- The names that a statement may bind. -/
def Statement.letNames : Statement → List String
  | .letIn _ i e => i.name :: e.letNames
  | .returnNothing _ => []
  | .returnValue _ e => e.letNames
  | .expression _ e => e.letNames

/-- The names that a list of statements may bind. -/
def Statement.allLetNames : List Statement → List String
  | [] => []
  | s :: ss => s.letNames ++ Statement.allLetNames ss

end

/-- The names that a program may bind. -/
def Program.letNames (p : Program) : List String := Statement.allLetNames p.statements

/-! ### Changes to frames and stores -/

/-- A frame with bindings added and changed at `names`, but none lost. -/
structure Frame.Updated (names : List String) (f f' : Frame) : Prop where
  outer : f'.outer = f.outer
  bound : ∀ name, (f.get? name).isSome → (f'.get? name).isSome
  changed : ∀ name, f'.get? name ≠ f.get? name → name ∈ names

namespace Store

/-- No frame is changed; there may be new ones. -/
structure Untouched (s s' : Store) : Prop where
  size_le : s.frames.size ≤ s'.frames.size
  same : ∀ i < s.frames.size, s'.frames[i]? = s.frames[i]?

/-- No frame is changed but one, and that one only at `names`. -/
structure Confined (frame : FrameId) (names : List String) (s s' : Store) : Prop where
  size_le : s.frames.size ≤ s'.frames.size
  elsewhere : ∀ i < s.frames.size, i ≠ frame → s'.frames[i]? = s.frames[i]?
  here : ∀ f, s.frames[frame]? = some f →
    ∃ f', s'.frames[frame]? = some f' ∧ Frame.Updated names f f'

end Store

theorem Frame.Updated.refl (names : List String) (f : Frame) : f.Updated names f :=
  ⟨rfl, fun _ h => h, fun _ h => absurd rfl h⟩

theorem Frame.Updated.trans {names : List String} {f g h : Frame} (hfg : f.Updated names g)
    (hgh : g.Updated names h) : f.Updated names h := by
  refine ⟨hgh.outer.trans hfg.outer, fun name hf => hgh.bound name (hfg.bound name hf), ?_⟩
  intro name hne
  by_cases hg : g.get? name = f.get? name
  · exact hgh.changed name (hg ▸ hne)
  · exact hfg.changed name hg

theorem Frame.updated_set {names : List String} {name : String} (h : name ∈ names) (f : Frame)
    (v : Value) : f.Updated names (f.set name v) := by
  refine ⟨rfl, fun other hf => ?_, fun other hne => ?_⟩
  · rw [get?_set]
    split
    · rfl
    · exact hf
  · rw [get?_set] at hne
    split at hne
    · rename_i heq
      rw [heq]
      exact h
    · exact absurd rfl hne

namespace Store

variable {frame : FrameId} {names : List String} {s s' s'' : Store}

theorem Untouched.refl (s : Store) : s.Untouched s := ⟨Nat.le_refl _, fun _ _ => rfl⟩

theorem Untouched.trans (h : s.Untouched s') (h' : s'.Untouched s'') : s.Untouched s'' := by
  refine ⟨Nat.le_trans h.size_le h'.size_le, fun i hi => ?_⟩
  rw [h'.same i (Nat.lt_of_lt_of_le hi h.size_le), h.same i hi]

theorem Confined.refl (frame : FrameId) (names : List String) (s : Store) :
    s.Confined frame names s :=
  ⟨Nat.le_refl _, fun _ _ _ => rfl, fun f hf => ⟨f, hf, .refl names f⟩⟩

theorem Confined.trans (h : s.Confined frame names s') (h' : s'.Confined frame names s'') :
    s.Confined frame names s'' := by
  refine ⟨Nat.le_trans h.size_le h'.size_le, fun i hi hne => ?_, fun f hf => ?_⟩
  · rw [h'.elsewhere i (Nat.lt_of_lt_of_le hi h.size_le) hne, h.elsewhere i hi hne]
  · obtain ⟨f', hf', hupdated⟩ := h.here f hf
    obtain ⟨f'', hf'', hupdated'⟩ := h'.here f' hf'
    exact ⟨f'', hf'', hupdated.trans hupdated'⟩

/-- What leaves the store untouched is confined to any frame. -/
theorem Untouched.confined (h : s.Untouched s') (frame : FrameId) (names : List String) :
    s.Confined frame names s' := by
  refine ⟨h.size_le, fun i hi _ => h.same i hi, fun f hf => ⟨f, ?_, .refl names f⟩⟩
  have hlt : frame < s.frames.size := (Array.getElem?_eq_some_iff.mp hf).1
  rw [h.same frame hlt, hf]

theorem confined_define {name : String} (h : name ∈ names) (s : Store) (frame : FrameId)
    (v : Value) : s.Confined frame names (s.define frame name v) := by
  refine ⟨?_, fun i _ hne => ?_, fun f hf => ⟨f.set name v, ?_, Frame.updated_set h f v⟩⟩
  · simp [define]
  · simp [define, Array.getElem?_modify, Ne.symm hne]
  · simp [define, Array.getElem?_modify, hf]

/-- A new frame, and whatever happens in it, leaves the store as it was before untouched. -/
theorem Confined.untouched_push {f : Frame}
    (h : (s.push f).Confined s.frames.size names s') : s.Untouched s' := by
  have hsize : (s.push f).frames.size = s.frames.size + 1 := Array.size_push ..
  refine ⟨by have := h.size_le; omega, fun i hi => ?_⟩
  rw [h.elsewhere i (by omega) (by omega)]
  exact Array.getElem?_push_lt hi ▸ (Array.getElem?_eq_getElem hi).symm

end Store

/-! ### Evaluation -/

/-- All names that the code may bind are among `names`. -/
def Condition.letNames (names : List String) : Condition where
  expr e := ∀ name ∈ e.letNames, name ∈ names
  exprs es := ∀ name ∈ Expr.allLetNames es, name ∈ names
  block b := ∀ name ∈ b.letNames, name ∈ names
  statement s := ∀ name ∈ s.letNames, name ∈ names
  statements ss := ∀ name ∈ Statement.allLetNames ss, name ∈ names
  unary h := h
  binary h := List.forall_mem_append.mp h
  ifThen h := List.forall_mem_append.mp h
  ifThenElse h := (List.forall_mem_append.mp h).imp_right List.forall_mem_append.mp
  call h := List.forall_mem_append.mp h
  cons h := List.forall_mem_append.mp h
  content h := h
  letIn h := (List.forall_mem_cons.mp h).2
  returnValue h := h
  expression h := h
  next h := List.forall_mem_append.mp h

/-- Whatever was changed since `s₀` is confined to the frame at hand. -/
theorem Store.confined_contract (frame : FrameId) (names : List String) (s₀ : Store) :
    Contract (.letNames names) (s₀.Confined frame names) (· = frame) (fun _ => True)
      fun _ => True where
  null := trivial
  integer _ := trivial
  boolean _ := trivial
  function _ _ _ := trivial
  lookup _ _ _ _ := trivial
  define h hs hi _ := hi ▸ hs.trans (confined_define (h _ (List.mem_cons_self ..)) _ _ _)
  count _ hs := ⟨hs.size_le, hs.elsewhere, hs.here⟩
  fail _ := trivial
  unbound _ := trivial
  returned _ _ _ := trivial

/-- Calls leave the store as it was before untouched. -/
def Calling.Untouched (call : Calling) : Prop :=
  ∀ g vs (m : Machine), m.store.Untouched ((call g vs).after m).store

theorem Calling.Untouched.obeys {call : Calling} (h : call.Untouched) (frame : FrameId)
    (names : List String) (s₀ : Store) :
    call.Obeys (Run.meeting (s₀.Confined frame names) fun _ => True) (fun _ _ => True)
      fun _ _ => .nothing :=
  fun g vs _ _ _ => Run.meets_of_after fun m hm => hm.trans ((h g vs m).confined frame names)

/-- A block changes nothing but the frame at hand, if calls do not. -/
theorem Block.eval_confined {call : Calling} (h : call.Untouched) (frame : FrameId) (b : Block)
    (m : Machine) : m.store.Confined frame b.letNames ((b.eval call frame).after m).store := by
  have c := (Store.confined_contract frame b.letNames m.store).rules rfl
  have hmeets := c.block (h.obeys frame b.letNames m.store) (Nat.le_refl 0) b fun _ h => h
  exact Run.Meets.after hmeets (.refl frame b.letNames m.store)

/-- The judgement that a run leaves the store as it was before untouched. -/
abbrev Run.untouching : Judgement := fun _ _ r _ => ∀ m : Machine, m.store.Untouched (r.after m).store

/-- A call changes no frame that was there before. -/
theorem Closure.call_untouched (depth : Nat) : Calling.Untouched (Closure.call depth) := by
  have h : Calling.Obeys Run.untouching (fun _ _ => True) (Closure.call depth)
      (Closure.writes depth) := by
    refine Closure.call_obeys (J := Run.untouching) (fun _ _ m => .refl m.store)
      (fun _ m => .refl m.store) (fun {call _} hcall g vs _ _ _ m => ?_) depth
    have huntouched : call.Untouched := fun g vs => hcall g vs 0 trivial fun _ _ => trivial
    have hafter : (Closure.enter call g vs).after m =
        (g.body.eval call m.store.frames.size).after (m.entering g vs) := Run.after_catchReturn _ _
    rw [hafter]
    exact (g.body.eval_confined huntouched m.store.frames.size (m.entering g vs)).untouched_push
  exact fun g vs => h g vs 0 trivial fun _ _ => trivial

/-- **Evaluation writes only the current frame.** However the evaluation of code in a frame ends,
it changes no other frame that was there before, and in this one only names that the code binds
by `let` outside of function literals; calling a function changes no such frame at all. -/
theorem evaluation_confined (depth : Nat) (frame : FrameId) (m : Machine) :
    (∀ e : Expr, m.store.Confined frame e.letNames
      ((e.eval (Closure.call depth) frame).after m).store) ∧
    (∀ es : List Expr, m.store.Confined frame (Expr.allLetNames es)
      ((Expr.evalAll (Closure.call depth) frame es).after m).store) ∧
    (∀ b : Block, m.store.Confined frame b.letNames
      ((b.eval (Closure.call depth) frame).after m).store) ∧
    (∀ s : Statement, m.store.Confined frame s.letNames
      ((s.eval (Closure.call depth) frame).after m).store) ∧
    (∀ p : Program, m.store.Confined frame p.letNames (p.eval depth frame m).2.store) ∧
    ∀ (g : Closure) (arguments : List Value),
      m.store.Untouched ((g.call depth arguments).after m).store := by
  have hcall := Closure.call_untouched depth
  have hobeys (names : List String) := hcall.obeys frame names m.store
  have hm (names : List String) : m.store.Confined frame names m.store := .refl frame names m.store
  have c (names : List String) := (Store.confined_contract frame names m.store).rules rfl
  have hn : 0 ≤ 0 := Nat.le_refl 0
  refine ⟨fun e => ?_, fun es => ?_, fun b => b.eval_confined hcall frame m, fun s => ?_, fun p => ?_,
    fun g vs => hcall g vs m⟩
  · exact Run.Meets.after ((c e.letNames).expr (hobeys _) hn e fun _ h => h) (hm _)
  · exact Run.Meets.after ((c (Expr.allLetNames es)).exprs (hobeys _) hn es fun _ h => h) (hm _)
  · exact Run.Meets.after ((c s.letNames).statement (hobeys _) hn s fun _ h => h) (hm _)
  · rw [p.eval_after]
    have hmeets := (c p.letNames).statements (hobeys _) hn .null trivial p.statements fun _ h => h
    exact Run.Meets.after hmeets (hm _)

end LetLang
