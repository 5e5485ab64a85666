import Mathlib.Data.Set.Defs
import LetLang.Proofs.Contracts
import LetLang.Proofs.Reachability

/-! Evaluation overlooks what is not mentioned.

Code that mentions no name of a set does not notice the bindings of these names: it does the same
in the store without them, binding by binding and frame by frame, and what was bound to them is left
alone (`Program.eval_without`). Of the functions that it comes to call the same has to be known. So
the invariant is about a set of frames that evaluation does not leave, as those that can be reached
at the start and all that are made later: other names than those of the set lead from there to these
frames only, and to functions that do not mention the set (`Store.Avoids`). -/
namespace LetLang

/-! ### Names in code -/

mutual

/-- The names that occur in an expression, also in its function literals. -/
def Expr.names : Expr → List String
  | .identifier i => [i.name]
  | .integer _ _ => []
  | .boolean _ _ => []
  | .unary _ _ e => e.names
  | .binary _ l _ r => l.names ++ r.names
  | .ifThen _ c b => c.names ++ b.names
  | .ifThenElse _ c b a => c.names ++ (b.names ++ a.names)
  | .function _ ps b => ps.map Identifier.name ++ b.names
  | .call _ f es => f.names ++ Expr.allNames es

/-- The names that occur in a list of expressions. -/
def Expr.allNames : List Expr → List String
  | [] => []
  | e :: es => e.names ++ Expr.allNames es

/-- The names that occur in a block. -/
def Block.names : Block → List String
  | .mk _ ss => Statement.allNames ss

/-- The names that occur in a statement, with the one that it binds. -/
def Statement.names : Statement → List String
  | .letIn _ i e => i.name :: e.names
  | .returnNothing _ => []
  | .returnValue _ e => e.names
  | .expression _ e => e.names

/-- The names that occur in a list of statements. -/
def Statement.allNames : List Statement → List String
  | [] => []
  | s :: ss => s.names ++ Statement.allNames ss

end

/-- The names that occur in a program. -/
def Program.names (p : Program) : List String := Statement.allNames p.statements

/-- The names that occur in the code of a function, with its parameters. -/
def Closure.names (g : Closure) : List String :=
  g.parameters.map Identifier.name ++ g.body.names

/-! ### Leaving bindings out -/

namespace Frame

variable {N : Set String} {name : String}

open Classical in
/-- The frame without its bindings of the names in `N`. -/
noncomputable def without (N : Set String) (f : Frame) : Frame :=
  { f with bindings := f.bindings.filter fun b => decide (b.1 ∉ N) }

theorem get?_without_of_mem (f : Frame) (h : name ∈ N) : (f.without N).get? name = none := by
  refine List.lookup_eq_none_iff.mpr fun b hb => ?_
  have hout : b.1 ∉ N := by simpa using (List.mem_filter.mp hb).2
  have hne : name ≠ b.1 := fun heq => hout (heq ▸ h)
  simpa using hne

theorem get?_without (f : Frame) (h : name ∉ N) : (f.without N).get? name = f.get? name := by
  unfold get? without
  induction f.bindings with
  | nil => rfl
  | cons b bs ih =>
    obtain ⟨n, w⟩ := b
    by_cases hn : n ∈ N
    · have hne : name ≠ n := fun heq => h (heq ▸ hn)
      simpa [hn, List.lookup_cons, beq_false_of_ne hne] using ih
    · simp only [List.filter_cons, hn, not_false_eq_true, decide_true, if_true, List.lookup_cons, ih]

theorem without_set (f : Frame) (h : name ∉ N) (v : Value) :
    (f.set name v).without N = (f.without N).set name v := by
  simp [without, set, h, List.filter_filter, Bool.and_comm]

open Classical in
/-- Binding a name that is left out makes no difference. -/
theorem without_set_of_mem (f : Frame) (h : name ∈ N) (v : Value) :
    (f.set name v).without N = f.without N := by
  have hkept : ∀ b ∈ f.bindings, (decide (b.1 ∉ N) && b.1 != name) = decide (b.1 ∉ N) := by
    intro b _
    by_cases hb : b.1 ∈ N
    · simp [hb]
    · have hne : b.1 ≠ name := fun heq => hb (heq ▸ h)
      simp [hb, hne]
  simpa [without, set, h, List.filter_filter] using List.filter_congr hkept

/-- In the frame of a call nothing is bound but parameters. -/
theorem without_ofCall (g : Closure) (vs : List Value) (h : ∀ name ∈ g.names, name ∉ N) :
    (ofCall g vs).without N = ofCall g vs := by
  have hnames : ∀ b ∈ g.parameters.zip vs, b.1.name ∉ N := fun b hb =>
    h _ (List.mem_append_left _ (List.mem_map_of_mem (List.of_mem_zip hb).1))
  suffices hfold : ∀ f : Frame, ((g.parameters.zip vs).foldl (fun f b => f.set b.1.name b.2) f).without N =
      (g.parameters.zip vs).foldl (fun f b => f.set b.1.name b.2) (f.without N) from hfold _
  revert hnames
  generalize g.parameters.zip vs = bs
  intro hnames
  induction bs with
  | nil => exact fun f => rfl
  | cons b bs ih =>
    obtain ⟨hb, hbs⟩ := List.forall_mem_cons.mp hnames
    intro f
    rw [List.foldl_cons, List.foldl_cons, ih hbs, f.without_set hb]

end Frame

namespace Store

variable {N : Set String} {name : String}

/-- The store without the bindings of the names in `N`, in all of its frames. -/
noncomputable def without (N : Set String) (s : Store) : Store :=
  { s with frames := s.frames.map (Frame.without N) }

theorem frames_without (s : Store) (i : FrameId) :
    (s.without N).frames[i]? = s.frames[i]?.map (Frame.without N) := Array.getElem?_map

theorem size_without (s : Store) : (s.without N).frames.size = s.frames.size := Array.size_map

/-- Leaving bindings out moves no frame. -/
theorem around_without (s : Store) (i : FrameId) : (s.without N).around i = s.around i := by
  rw [around, around, frames_without]
  cases s.frames[i]? <;> rfl

theorem lookup_without (s : Store) (i : FrameId) (h : name ∉ N) :
    (s.without N).lookup i name = s.lookup i name := by
  have hbound : ((s.without N).frames[i]?.bind fun f => f.get? name) =
      s.frames[i]?.bind fun f => f.get? name := by
    rw [frames_without]
    cases s.frames[i]? with
    | none => rfl
    | some f => exact f.get?_without h
  rw [lookup_eq, lookup_eq, hbound, around_without]
  cases ho : s.around i with
  | none => rfl
  | some o =>
    have hlt := lt_of_around ho
    rw [Option.bind_some, Option.bind_some, lookup_without s o h]
termination_by i

/-- Stores with the same frames, of which the same number of functions was made. -/
theorem eq_of_frames {s s' : Store} (h : ∀ i : FrameId, s.frames[i]? = s'.frames[i]?)
    (hfunctions : s.functions = s'.functions) : s = s' := by
  cases s
  cases s'
  cases hfunctions
  exact congrArg (Store.mk · _) (Array.ext_getElem? h)

theorem without_define (s : Store) (i : FrameId) (h : name ∉ N) (v : Value) :
    (s.define i name v).without N = (s.without N).define i name v := by
  refine eq_of_frames (fun k => ?_) rfl
  rw [frames_without, frames_define, frames_define, frames_without]
  split
  · cases s.frames[k]? with
    | none => rfl
    | some f => exact congrArg some (f.without_set h v)
  · rfl

/-- Binding a name that is left out makes no difference, in any frame. -/
theorem without_define_of_mem (s : Store) (i : FrameId) (h : name ∈ N) (v : Value) :
    (s.define i name v).without N = s.without N := by
  refine eq_of_frames (fun k => ?_) rfl
  rw [frames_without, frames_define, frames_without]
  split
  · cases s.frames[k]? with
    | none => rfl
    | some f => exact congrArg some (f.without_set_of_mem h v)
  · rfl

theorem without_push (s : Store) (f : Frame) :
    (s.push f).without N = (s.without N).push (f.without N) := by
  refine eq_of_frames (fun k => ?_) rfl
  rw [frames_without, frames_push, frames_push, frames_without, size_without]
  split <;> rfl

end Store

/-! ### The invariant -/

/-- What a name is bound to in one frame of the store. -/
def Store.binding (s : Store) (i : FrameId) (name : String) : Option Value :=
  s.frames[i]?.bind fun f => f.get? name

/-- The names in `N` are bound to the same in both stores, in the frames that are in both, and not
at all in the frames that are in one of them. -/
def Store.Spares (N : Set String) (s s' : Store) : Prop :=
  ∀ (i : FrameId), ∀ name ∈ N, s'.binding i name = s.binding i name

/-- If the value is a function, its code mentions no name in `N`, and it captured a frame in `P`. -/
def Value.Avoids (N : Set String) (P : FrameId → Prop) : Value → Prop
  | .function g => (∀ name ∈ g.names, name ∉ N) ∧ P g.frame
  | _ => True

/-- From the frames in `P`, which evaluation does not leave, no other name than those in `N` leads to
a function that mentions a name in `N`; and the names in `N` are bound as in `s₀`. -/
structure Store.Avoids (N : Set String) (P : FrameId → Prop) (s₀ s : Store) : Prop where
  region : s.Region P (· ∉ N) (Value.Avoids N P)
  spared : s₀.Spares N s

section
variable {N : Set String} {P : FrameId → Prop} {s₀ s : Store} {name : String} {frame : FrameId}

namespace Store

theorem Spares.define (h : s₀.Spares N s) (hname : name ∉ N) (frame : FrameId) (v : Value) :
    s₀.Spares N (s.define frame name v) := by
  intro i other hother
  have hne : other ≠ name := fun heq => hname (heq ▸ hother)
  rw [← h i other hother, binding, binding, frames_define]
  split
  · cases s.frames[i]? with
    | none => rfl
    | some f => exact (f.get?_set name other v).trans (if_neg hne)
  · rfl

theorem Spares.push (h : s₀.Spares N s) {g : Closure} (hg : ∀ name ∈ g.names, name ∉ N)
    (vs : List Value) : s₀.Spares N (s.push (.ofCall g vs)) := by
  intro i other hother
  rw [← h i other hother, binding, binding, frames_push]
  split
  · rename_i heq
    subst heq
    rw [Array.getElem?_eq_none (Nat.le_refl _), Option.bind_some, ← Frame.without_ofCall g vs hg]
    exact Frame.get?_without_of_mem _ hother
  · rfl

theorem Avoids.define (h : Avoids N P s₀ s) (hname : name ∉ N) (frame : FrameId) {v : Value}
    (hv : v.Avoids N P) : Avoids N P s₀ (s.define frame name v) :=
  ⟨h.region.define frame name hv, h.spared.define hname frame v⟩

theorem Avoids.push (h : Avoids N P s₀ s) {g : Closure} {vs : List Value}
    (hg : (Value.function g).Avoids N P) (hvs : ∀ v ∈ vs, v.Avoids N P) :
    Avoids N P s₀ (s.push (.ofCall g vs)) :=
  ⟨h.region.push hg.2 hvs, h.spared.push hg.1 vs⟩

end Store

end

/-! ### Runs -/

/-- The machine without the bindings of the names in `N`. -/
noncomputable def Machine.without (N : Set String) (m : Machine) : Machine :=
  { m with store := m.store.without N }

namespace Run

variable {α β : Type} {N : Set String} {P : FrameId → Prop} {s₀ : Store} {Q : α → Prop}
  {Q' : β → Prop} {name : String} {frame : FrameId}

/-- A result with the bindings of the names in `N` left out. -/
noncomputable def without (N : Set String) :
    EStateM.Result Interrupt Machine α → EStateM.Result Interrupt Machine α
  | .ok a m => .ok a (m.without N)
  | .error i m => .error i (m.without N)

/-- The run keeps to the frames in `P`, with a result as `Q` says, and does the same where the
bindings of the names in `N` are left out. -/
structure Overlooks (N : Set String) (P : FrameId → Prop) (s₀ : Store) (Q : α → Prop)
    (r : Run α) : Prop where
  keeps : r.Meets (Store.Avoids N P s₀) (Interrupt.Returns (Value.Avoids N P)) Q
  same : ∀ m, Store.Avoids N P s₀ m.store → r (m.without N) = without N (r m)

theorem overlooks_pure {a : α} (h : Q a) : (pure a : Run α).Overlooks N P s₀ Q :=
  ⟨meets_pure h, fun _ _ => rfl⟩

theorem overlooks_throw {i : Interrupt} (h : i.Returns (Value.Avoids N P)) :
    (throw i : Run α).Overlooks N P s₀ Q :=
  ⟨meets_throw h, fun _ _ => rfl⟩

theorem overlooks_record (e : Event) : (record e).Overlooks N P s₀ fun _ => True :=
  ⟨meets_record e, fun _ _ => rfl⟩

theorem overlooks_lookup (hframe : P frame) (hname : name ∉ N) :
    (lookup frame name).Overlooks N P s₀ (Value.Avoids N P) := by
  refine ⟨fun m hm => ?_, fun m _ => ?_⟩
  · rw [lookup_apply]
    cases hv : m.store.lookup frame name with
    | some v => exact ⟨hm, hm.region.lookup frame hframe hname hv⟩
    | none => exact ⟨hm, trivial⟩
  · have hlookup : (m.without N).store.lookup frame name = m.store.lookup frame name :=
      m.store.lookup_without frame hname
    rw [lookup_apply, lookup_apply, hlookup]
    cases m.store.lookup frame name <;> rfl

theorem overlooks_define (frame : FrameId) (hname : name ∉ N) {v : Value} (hv : v.Avoids N P) :
    (define frame name v).Overlooks N P s₀ fun _ => True := by
  refine ⟨fun m hm => ⟨hm.define hname frame hv, trivial⟩, fun m _ => ?_⟩
  exact congrArg (fun s => EStateM.Result.ok () (Machine.mk s m.events))
    (m.store.without_define frame hname v).symm

theorem overlooks_newFunction (hframe : P frame) {ps : List Identifier} {b : Block}
    (h : ∀ name ∈ ps.map Identifier.name ++ b.names, name ∉ N) :
    (newFunction ps b frame).Overlooks N P s₀ (Value.Avoids N P) :=
  ⟨fun _ hm => ⟨⟨hm.region.count _, hm.spared⟩, h, hframe⟩, fun _ _ => rfl⟩

theorem overlooks_newFrame {g : Closure} {vs : List Value} (hg : (Value.function g).Avoids N P)
    (hvs : ∀ v ∈ vs, v.Avoids N P) : (newFrame (.ofCall g vs)).Overlooks N P s₀ P := by
  refine ⟨fun m hm => ⟨hm.push hg hvs, hm.region.fresh _ (Nat.le_refl _)⟩, fun m _ => ?_⟩
  have hpush : (m.store.push (.ofCall g vs)).without N = (m.store.without N).push (.ofCall g vs) := by
    rw [Store.without_push, Frame.without_ofCall g vs hg.1]
  show EStateM.Result.ok (m.store.without N).frames.size
      (Machine.mk ((m.store.without N).push (.ofCall g vs)) m.events) =
    .ok m.store.frames.size (Machine.mk ((m.store.push (.ofCall g vs)).without N) m.events)
  rw [hpush, Store.size_without]

theorem Overlooks.bind {r : Run α} {f : α → Run β} (hr : r.Overlooks N P s₀ Q)
    (hf : ∀ a, Q a → (f a).Overlooks N P s₀ Q') : (r >>= f).Overlooks N P s₀ Q' := by
  refine ⟨hr.keeps.bind fun a ha => (hf a ha).keeps, fun m hm => ?_⟩
  have hkeeps := hr.keeps m hm
  rw [bind_apply, bind_apply, hr.same m hm]
  cases hresult : r m with
  | ok a m' =>
    rw [hresult] at hkeeps
    exact (hf a hkeeps.2).same m' hkeeps.1
  | error i m' => rfl

theorem Overlooks.catchReturn {r : Run Value} (h : r.Overlooks N P s₀ (Value.Avoids N P)) :
    (catchReturn r).Overlooks N P s₀ (Value.Avoids N P) := by
  refine ⟨(h.keeps.catchReturn fun _ hv => hv).mono fun _ hi => hi.here, fun m hm => ?_⟩
  rw [catchReturn_apply, catchReturn_apply, h.same m hm]
  cases r m with
  | ok v m' => rfl
  | error i m' => cases i <;> rfl

/-- The judgement that a run overlooks the names in `N`, whatever it writes. -/
abbrev overlooking (N : Set String) (P : FrameId → Prop) (s₀ : Store) : Judgement :=
  fun n Q r _ => r.Overlooks N P s₀ (Q n)

end Run

/-! ### Evaluation -/

/-- No name in `N` occurs in the code. -/
def Condition.unmentioned (N : Set String) : Condition where
  expr e := ∀ name ∈ e.names, name ∉ N
  exprs es := ∀ name ∈ Expr.allNames es, name ∉ N
  block b := ∀ name ∈ b.names, name ∉ N
  statement s := ∀ name ∈ s.names, name ∉ N
  statements ss := ∀ name ∈ Statement.allNames ss, name ∉ N
  unary h := h
  binary h := List.forall_mem_append.mp h
  ifThen h := List.forall_mem_append.mp h
  ifThenElse h := (List.forall_mem_append.mp h).imp_right List.forall_mem_append.mp
  call h := List.forall_mem_append.mp h
  cons h := List.forall_mem_append.mp h
  content h := h
  letIn h := (List.forall_mem_cons.mp h).2
  returnValue h := h
  expression h := h
  next h := List.forall_mem_append.mp h

section
variable {N : Set String} {P : FrameId → Prop} {s₀ : Store} {frame : FrameId}

theorem overlooking_rules (hframe : P frame) :
    Rules (.unmentioned N) frame 0 (Run.overlooking N P s₀) fun _ => Value.Avoids N P where
  pure h := Run.overlooks_pure (h _ (Nat.le_refl _))
  bind hr hf := hr.bind fun a ha => hf a _ (Nat.le_refl _) ha
  record _ := Run.overlooks_record _
  integer _ := trivial
  boolean _ := trivial
  null := trivial
  mono h _ := h
  fail _ := Run.overlooks_throw trivial
  lookup _ h := Run.overlooks_lookup hframe (h _ (List.mem_singleton_self _))
  function _ h := Run.overlooks_newFunction hframe h
  define _ h hv := Run.overlooks_define frame (h _ (List.mem_cons_self ..)) hv
  returned _ _ hv := Run.overlooks_throw hv

/-- Calls overlook what evaluation overlooks, at any depth. -/
theorem Closure.call_overlooks (depth : Nat) :
    Calling.Obeys (Run.overlooking N P s₀) (fun _ => Value.Avoids N P) (Closure.call depth)
      (Closure.writes depth) := by
  refine Closure.call_obeys (fun g vs => ?_) (fun g => ?_) (fun {call log} hcall g vs _ hg hvs => ?_)
    depth
  · exact Run.overlooks_throw trivial
  · exact (Run.overlooks_record _).bind fun _ _ => Run.overlooks_throw trivial
  · refine (Run.overlooks_record _).bind fun _ _ => (Run.overlooks_newFrame hg hvs).bind fun i hi => ?_
    have hbody := (List.forall_mem_append.mp hg.1).2
    exact Run.Overlooks.catchReturn
      ((overlooking_rules hi).block hcall (Nat.le_refl 0) g.body hbody)

end

/-- **A program overlooks bindings that nothing mentions.** It does the same where they are left out,
and leaves them alone where they are not. -/
theorem Program.eval_without {N : Set String} {P : FrameId → Prop} {s₀ : Store} {m : Machine}
    (hm : Store.Avoids N P s₀ m.store) {frame : FrameId} (hframe : P frame) {p : Program}
    (hp : ∀ name ∈ p.names, name ∉ N) (depth : Nat) :
    p.eval depth frame (m.without N) =
        ((p.eval depth frame m).1, (p.eval depth frame m).2.without N) ∧
      Store.Avoids N P s₀ (p.eval depth frame m).2.store := by
  have hnull : Value.null.Avoids N P := trivial
  have h : (Statement.evalAll (Closure.call depth) frame .null p.statements).Overlooks N P s₀
      (Value.Avoids N P) :=
    (overlooking_rules hframe).statements (Closure.call_overlooks depth) (Nat.le_refl 0) .null hnull
      p.statements hp
  refine ⟨?_, p.eval_after depth frame m ▸ h.keeps.after hm⟩
  unfold Program.eval
  rw [h.same m hm]
  cases Statement.evalAll (Closure.call depth) frame .null p.statements m with
  | ok v m' => rfl
  | error i m' => cases i <;> rfl

end LetLang
