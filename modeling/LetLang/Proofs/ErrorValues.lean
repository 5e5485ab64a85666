import LetLang.Session
import LetLang.Proofs.Parts
import LetLang.Proofs.Reachability

/-! Errors and values are never confused.

An error that ends a program is shown as a value, of a kind of its own, but no program ever holds
it: where no error is bound in any frame that can be reached, evaluation neither gives an error as a
value nor returns one, neither binds one nor passes one on, in any of its parts. What an execution
says therefore tells how its evaluation ended (`errors_never_values`).

The invariant is about a set of frames that evaluation does not leave: those that can be reached at
the start, and all that are made later. No error is bound in them, and the frames outside stay as
they are (`Store.Clean`). -/
namespace LetLang

/-- Is a value an error that ended a program? -/
def Value.isError : Value → Bool
  | .error _ => true
  | _ => false

namespace Store

/-- No error is bound in any frame that can be reached from `frame`. -/
def ErrorFree (s : Store) (frame : FrameId) : Prop :=
  ∀ (i : FrameId) (f : Frame) (name : String) (v : Value), s.Reaches [frame] i →
    s.frames[i]? = some f → f.get? name = some v → v.isError = false

/-- Wherever an error is bound, it was bound in the store `s₀` too. -/
def NoNewErrors (s₀ s : Store) : Prop :=
  ∀ (i : FrameId) (f : Frame) (name : String) (e : RuntimeError), s.frames[i]? = some f →
    f.get? name = some (.error e) →
      ∃ f₀ : Frame, s₀.frames[i]? = some f₀ ∧ f₀.get? name = some (.error e)

end Store

/-! ### The invariant -/

/-- No error, and no function that captured a frame outside of `P`. -/
def Value.Clean (P : FrameId → Prop) : Value → Prop
  | .function g => P g.frame
  | .error _ => False
  | _ => True

/-- Nothing leads from the frames in `P` to another frame or to an error, frames that are yet to be
made are in `P`, and all other frames are as they were in `s₀`. -/
structure Store.Clean (P : FrameId → Prop) (s₀ s : Store) : Prop where
  bound : ∀ {i : FrameId} {f : Frame} {name : String} {v : Value}, P i → s.frames[i]? = some f →
    f.get? name = some v → v.Clean P
  around : ∀ {i o : FrameId}, P i → s.around i = some o → P o
  fresh : ∀ i, s.frames.size ≤ i → P i
  elsewhere : ∀ i, ¬ P i → s.frames[i]? = s₀.frames[i]?

theorem Value.Clean.isError_eq {P : FrameId → Prop} {v : Value} (h : v.Clean P) :
    v.isError = false := by
  cases v with
  | error e => exact h.elim
  | _ => rfl

namespace Store

variable {P : FrameId → Prop} {s₀ s : Store} {frame : FrameId}

theorem clean_iff : Clean P s₀ s ↔
    s.Region P (fun _ => True) (Value.Clean P) ∧ ∀ i, ¬ P i → s.frames[i]? = s₀.frames[i]? :=
  ⟨fun h => ⟨⟨fun hi hf _ hv => h.bound hi hf hv, h.around, h.fresh⟩, h.elsewhere⟩,
    fun ⟨h, helsewhere⟩ => ⟨fun hi hf hv => h.bound hi hf trivial hv, h.around, h.fresh, helsewhere⟩⟩

theorem Clean.lookup (h : Clean P s₀ s) (i : FrameId) (hi : P i) {name : String} {v : Value}
    (hv : s.lookup i name = some v) : v.Clean P := (clean_iff.mp h).1.lookup i hi trivial hv

theorem Clean.define (h : Clean P s₀ s) (hframe : P frame) (name : String) {v : Value}
    (hv : v.Clean P) : Clean P s₀ (s.define frame name v) := by
  refine clean_iff.mpr ⟨(clean_iff.mp h).1.define frame name hv, fun i hi => ?_⟩
  have hne : frame ≠ i := fun heq => hi (heq ▸ hframe)
  rw [frames_define, if_neg hne]
  exact h.elsewhere i hi

theorem Clean.push (h : Clean P s₀ s) {g : Closure} {vs : List Value} (hg : P g.frame)
    (hvs : ∀ v ∈ vs, v.Clean P) : Clean P s₀ (s.push (.ofCall g vs)) := by
  refine clean_iff.mpr ⟨(clean_iff.mp h).1.push hg hvs, fun i hi => ?_⟩
  have hne : i ≠ s.frames.size := fun heq => hi (h.fresh i (Nat.le_of_eq heq.symm))
  rw [frames_push, if_neg hne]
  exact h.elsewhere i hi

theorem clean_contract (P : FrameId → Prop) (s₀ : Store) :
    CallContract .none (Clean P s₀) P (Value.Clean P) (Interrupt.Returns (Value.Clean P)) where
  null := trivial
  integer _ := trivial
  boolean _ := trivial
  function _ _ hi := hi
  lookup _ hs hi hv := hs.lookup _ hi hv
  define _ hs hi hv := hs.define hi _ hv
  count n hs := clean_iff.mpr ⟨(clean_iff.mp hs).1.count n, hs.elsewhere⟩
  fail _ := trivial
  unbound _ := trivial
  returned _ _ hv := hv
  body _ := trivial
  push hs hg hvs := ⟨hs.push hg hvs, hs.fresh _ (Nat.le_refl _)⟩
  caught _ hv := hv
  exhausted := trivial

/-- Evaluation of statements in a frame in `P` keeps to the frames in `P`. -/
theorem clean_evalAll (hframe : P frame) (depth : Nat) (ss : List Statement) :
    (Statement.evalAll (Closure.call depth) frame .null ss).Meets (Clean P s₀)
      (Interrupt.Returns (Value.Clean P)) (Value.Clean P) := by
  have c := clean_contract P s₀
  exact (c.rules hframe).statements (c.obeys depth) (Nat.le_refl 0) .null c.null ss trivial

/-- The frames that can be reached, and those that are yet to be made. -/
theorem ErrorFree.clean (h : s.ErrorFree frame) :
    Clean (fun i => s.Reaches [frame] i ∨ s.frames.size ≤ i) s s := by
  refine clean_iff.mpr ⟨region_reaches fun i f name v hi hf _ hv => ?_, fun _ _ => rfl⟩
  cases v with
  | function g => exact .inl (.captured hi hf hv)
  | error e => exact nomatch h i f name _ hi hf hv
  | _ => trivial

theorem Clean.errorFree (h : Clean P s₀ s) (hframe : P frame) : s.ErrorFree frame := by
  have hreach {i : FrameId} (hi : s.Reaches [frame] i) : P i := by
    induction hi with
    | root hi => exact List.mem_singleton.mp hi ▸ hframe
    | around _ ho ih => exact h.around ih ho
    | captured _ hf hg ih => exact h.bound ih hf hg
  exact fun i f name v hi hf hv => (h.bound (hreach hi) hf hv).isError_eq

theorem Clean.noNewErrors (h : Clean P s₀ s) : s₀.NoNewErrors s := by
  intro i f name e hf he
  by_cases hi : P i
  · exact (h.bound hi hf he).elim
  · exact ⟨f, h.elsewhere i hi ▸ hf, he⟩

end Store

/-! ### Parts of an evaluation -/

/-- Errors are kept apart from values in an evaluation: none is among the values that it is given,
gives or returns, and none is bound where it begins or when it is over but those in `s₀`. -/
structure Evaluation.Apart (s₀ : Store) (x : Evaluation) : Prop where
  given : ∀ v ∈ x.task.given, v.isError = false
  value : ∀ vs m, x.outcome = .ok vs m → ∀ v ∈ vs, v.isError = false
  returned : ∀ v m, x.outcome = .error (.returned v) m → v.isError = false
  before : s₀.NoNewErrors x.start.store
  after : s₀.NoNewErrors x.after.store

theorem Task.Fits.given {P : FrameId → Prop} {task : Task} (h : task.Fits P (Value.Clean P)) :
    ∀ v ∈ task.given, v.isError = false := by
  cases task with
  | statements i last ss => exact List.forall_mem_singleton.mpr h.2.isError_eq
  | call g vs => exact List.forall_mem_cons.mpr ⟨rfl, fun v hv => (h.2 v hv).isError_eq⟩
  | _ => exact fun _ hv => nomatch hv

theorem Evaluation.Begins.apart {P : FrameId → Prop} {s₀ : Store} {x : Evaluation}
    (h : x.Begins (Store.Clean P s₀) P (Value.Clean P)) : x.Apart s₀ := by
  have c := Store.clean_contract P s₀
  have hallows := h.allows c
  refine ⟨h.task.given, fun vs m hvalue v hv => ?_, fun v m hreturned => ?_, h.store.noNewErrors,
    (h.after c).noNewErrors⟩
  · rw [hvalue] at hallows
    exact (hallows.2 v hv).isError_eq
  · rw [hreturned] at hallows
    exact hallows.2.isError_eq

/-! ### Executions -/

/-- The evaluation of the statements of a program. -/
def Program.evaluation (depth : Nat) (frame : FrameId) (s : Store) (p : Program) : Evaluation :=
  ⟨depth, .statements frame .null p.statements, .on s⟩

namespace Store

variable {P : FrameId → Prop} {s₀ s : Store} {frame : FrameId}

/-- The store after some texts were run in a frame, one after another, however each of them ends. -/
def executing (depth : Nat) (frame : FrameId) (s : Store) (sources : List String) : Store :=
  sources.foldl (fun s source => (execute depth frame s source).store) s

theorem Clean.begins (h : Clean P s₀ s) (hframe : P frame) (depth : Nat) (p : Program) :
    (p.evaluation depth frame s).Begins (Clean P s₀) P (Value.Clean P) :=
  ⟨h, hframe, trivial⟩

theorem Clean.store_execute (h : Clean P s₀ s) (hframe : P frame) (depth : Nat) (source : String) :
    Clean P s₀ (execute depth frame s source).store := by
  by_cases herrors : (parse source).errors = []
  · rw [(execute_of_errors_eq_nil depth frame s herrors).2, Program.eval_after]
    exact (clean_evalAll hframe depth _).after (m := .on s) h
  · rwa [(execute_of_errors_ne_nil depth frame s herrors).2]

theorem Clean.executing (h : Clean P s₀ s) (hframe : P frame) (depth : Nat)
    (sources : List String) : Clean P s₀ (s.executing depth frame sources) := by
  induction sources generalizing s with
  | nil => exact h
  | cons source sources ih => exact ih (h.store_execute hframe depth source)

end Store

theorem Value.outcome_eq_ok {v : Value} (h : v.isError = false) : v.outcome = .ok v := by
  cases v with
  | error e => cases h
  | _ => rfl

/-- What an execution says of the way in which the evaluation of its program ended. -/
structure Execution.Tells (source : String) (x : Execution)
    (ended : EStateM.Result Interrupt Machine Value) : Prop where
  stopped : ∀ e, x.outcome = some (.error (.stopped e)) ↔
    (parse source).errors = [] ∧ ∃ m, ended = .error (.failed e) m
  ok : ∀ v, x.outcome = some (.ok v) ↔
    (parse source).errors = [] ∧ ∃ m, ended = .ok v m ∨ ended = .error (.returned v) m
  value : ∀ v, x.outcome = some (.ok v) → v.isError = false

theorem Store.Clean.tells {P : FrameId → Prop} {s₀ s : Store} {frame : FrameId}
    (h : Store.Clean P s₀ s) (hframe : P frame) (depth : Nat) (source : String) :
    (execute depth frame s source).Tells source (Statement.evalAll (Closure.call depth) frame .null
      (parse source).program.statements (.on s)) := by
  have hallows := Store.clean_evalAll hframe depth (parse source).program.statements (.on s) h
  by_cases herrors : (parse source).errors = []
  · have houtcome := (execute_of_errors_eq_nil depth frame s herrors).1
    rw [Program.eval] at houtcome
    revert hallows houtcome
    generalize Statement.evalAll _ _ _ _ _ = ended
    intro hallows houtcome
    match ended, hallows with
    | .ok v m, hallows =>
      rw [Option.map_some, Value.outcome_eq_ok hallows.2.isError_eq] at houtcome
      constructor <;> simp_all [hallows.2.isError_eq]
    | .error (.returned v) m, hallows =>
      rw [Option.map_some, Value.outcome_eq_ok hallows.2.isError_eq] at houtcome
      constructor <;> simp_all [hallows.2.isError_eq]
    | .error (.failed e) m, _ => constructor <;> simp_all [Value.outcome]
    | .error .exhausted m, _ => constructor <;> simp_all
  · have houtcome := (execute_of_errors_ne_nil depth frame s herrors).1
    constructor <;> simp [houtcome, herrors]

/-- **Errors are never confused with values.** If no error is bound in any frame that can be reached
from the one at hand, this is still so after any number of texts were run in it, however they end.
Whatever is evaluated in the course of the next one, no error comes of it as a value or is returned
by it, none is handed to a call, and none is ever bound; and so that text is said to have stopped
with an error exactly if an error interrupted its statements, and to have a value, which is no
error, exactly if they were completed or returned with it. -/
theorem errors_never_values (depth : Nat) (frame : FrameId) (s : Store) (h : s.ErrorFree frame)
    (earlier : List String) (source : String) :
    let s' := s.executing depth frame earlier
    let p := (parse source).program
    s'.ErrorFree frame ∧
      (∀ x, (p.evaluation depth frame s').Contains x → x.Apart s) ∧
      (execute depth frame s' source).Tells source
        (Statement.evalAll (Closure.call depth) frame .null p.statements (.on s')) := by
  intro s' p
  have hframe : s.Reaches [frame] frame ∨ s.frames.size ≤ frame := .inl (.root (List.mem_cons_self ..))
  have hclean := h.clean.executing hframe depth earlier
  refine ⟨hclean.errorFree hframe, fun x hx => ?_, hclean.tells hframe depth source⟩
  exact ((hclean.begins hframe depth p).contains (Store.clean_contract _ s) hx).apart

/-- A session in which one line fails half way through, and a later one calls what it has defined. -/
theorem errors_never_values_session :
    let s := Store.root
    let earlier := ["let f = fn(x) \x7b return x; \x7d; f(1) + true", "let y = f(2)"]
    let source := "if (f(true)) \x7b return f; \x7d; 3"
    let s' := s.executing 1 Store.rootFrame earlier
    let p := (parse source).program
    s.ErrorFree Store.rootFrame ∧ s'.ErrorFree Store.rootFrame ∧
      (∀ x, (p.evaluation 1 Store.rootFrame s').Contains x → x.Apart s) ∧
      (execute 1 Store.rootFrame s' source).Tells source
        (Statement.evalAll (Closure.call 1) Store.rootFrame .null p.statements (.on s')) := by
  have h : Store.root.ErrorFree Store.rootFrame := by
    intro i f name v _ hf hv
    rw [Store.root, Store.frames_push] at hf
    split at hf
    · cases hf
      cases hv
    · cases hf
  exact ⟨h, errors_never_values 1 Store.rootFrame Store.root h _ _⟩

end LetLang
