import Mathlib.Logic.Relation
import LetLang.Proofs.Contracts

/-! The parts of an evaluation.

Evaluating a piece of code takes further evaluations: of its operands, of the statements of its
blocks, of the bodies of the functions that it calls. Each of them starts in the store that the ones
before it have left (`Evaluation.Part`). What a contract promises of an evaluation it promises of
all parts of it, at any depth: they start in a store that keeps the invariant, with values that have
the property, and what comes of them does too (`Evaluation.Begins.contains`). -/
namespace LetLang

/-- What can be evaluated: code in a frame, or a call on values. The statements of a sequence have
the value `last` if there are none. -/
inductive Task where
  | expr (frame : FrameId) (e : Expr)
  | exprs (frame : FrameId) (es : List Expr)
  | block (frame : FrameId) (b : Block)
  | statement (frame : FrameId) (s : Statement)
  | statements (frame : FrameId) (last : Value) (ss : List Statement)
  | call (g : Closure) (arguments : List Value)

/-- The values that a task is given. -/
def Task.given : Task → List Value
  | .statements _ last _ => [last]
  | .call g vs => .function g :: vs
  | _ => []

/-- The values that come of a task. -/
def Task.run (depth : Nat) : Task → Run (List Value)
  | .expr i e => do
    let v ← e.eval (Closure.call depth) i
    pure [v]
  | .exprs i es => Expr.evalAll (Closure.call depth) i es
  | .block i b => do
    let v ← b.eval (Closure.call depth) i
    pure [v]
  | .statement i s => do
    let v ← s.eval (Closure.call depth) i
    pure [v]
  | .statements i last ss => do
    let v ← Statement.evalAll (Closure.call depth) i last ss
    pure [v]
  | .call g vs => do
    let v ← g.call depth vs
    pure [v]

/-- A task, the machine that it starts on, and how deeply calls may be nested in it. -/
structure Evaluation where
  depth : Nat
  task : Task
  start : Machine

namespace Evaluation

/-- What comes of an evaluation. -/
def outcome (x : Evaluation) : EStateM.Result Interrupt Machine (List Value) :=
  x.task.run x.depth x.start

/-- The machine that an evaluation leaves, however it ends. -/
def after (x : Evaluation) : Machine := (x.task.run x.depth).after x.start

/-- The second evaluation is made in the course of the first one, and in no part of it. -/
inductive Part : Evaluation → Evaluation → Prop where
  | operand {d i t op e m} : Part ⟨d, .expr i (.unary t op e), m⟩ ⟨d, .expr i e, m⟩
  | left {d i t l op r m} : Part ⟨d, .expr i (.binary t l op r), m⟩ ⟨d, .expr i l, m⟩
  | right {d i t l op r m v m'} (hl : l.eval (Closure.call d) i m = .ok v m') :
    Part ⟨d, .expr i (.binary t l op r), m⟩ ⟨d, .expr i r, m'⟩
  | test {d i t c b m} : Part ⟨d, .expr i (.ifThen t c b), m⟩ ⟨d, .expr i c, m⟩
  | branch {d i t c b m v m'} (hc : c.eval (Closure.call d) i m = .ok v m') (hv : v.truthy) :
    Part ⟨d, .expr i (.ifThen t c b), m⟩ ⟨d, .block i b, m'⟩
  | condition {d i t c b a m} : Part ⟨d, .expr i (.ifThenElse t c b a), m⟩ ⟨d, .expr i c, m⟩
  | consequence {d i t c b a m v m'} (hc : c.eval (Closure.call d) i m = .ok v m')
    (hv : v.truthy) : Part ⟨d, .expr i (.ifThenElse t c b a), m⟩ ⟨d, .block i b, m'⟩
  | alternative {d i t c b a m v m'} (hc : c.eval (Closure.call d) i m = .ok v m')
    (hv : v.truthy = false) : Part ⟨d, .expr i (.ifThenElse t c b a), m⟩ ⟨d, .block i a, m'⟩
  | callee {d i t f es m} : Part ⟨d, .expr i (.call t f es), m⟩ ⟨d, .expr i f, m⟩
  | arguments {d i t f es m g m'} (hf : f.eval (Closure.call d) i m = .ok (.function g) m') :
    Part ⟨d, .expr i (.call t f es), m⟩ ⟨d, .exprs i es, m'⟩
  | application {d i t f es m g m' vs m''}
    (hf : f.eval (Closure.call d) i m = .ok (.function g) m')
    (hes : Expr.evalAll (Closure.call d) i es m' = .ok vs m'') :
    Part ⟨d, .expr i (.call t f es), m⟩ ⟨d, .call g vs, m''⟩
  | head {d i e es m} : Part ⟨d, .exprs i (e :: es), m⟩ ⟨d, .expr i e, m⟩
  | tail {d i e es m v m'} (he : e.eval (Closure.call d) i m = .ok v m') :
    Part ⟨d, .exprs i (e :: es), m⟩ ⟨d, .exprs i es, m'⟩
  | statements {d i t ss m} : Part ⟨d, .block i (.mk t ss), m⟩ ⟨d, .statements i .null ss, m⟩
  | initializer {d i t n e m} : Part ⟨d, .statement i (.letIn t n e), m⟩
    ⟨d, .expr i e, m.recording (.evaluating (.letIn t n e))⟩
  | returned {d i t e m} : Part ⟨d, .statement i (.returnValue t e), m⟩
    ⟨d, .expr i e, m.recording (.evaluating (.returnValue t e))⟩
  | expression {d i t e m} : Part ⟨d, .statement i (.expression t e), m⟩
    ⟨d, .expr i e, m.recording (.evaluating (.expression t e))⟩
  | first {d i last s ss m} : Part ⟨d, .statements i last (s :: ss), m⟩ ⟨d, .statement i s, m⟩
  | next {d i last s ss m v m'} (hs : s.eval (Closure.call d) i m = .ok v m') :
    Part ⟨d, .statements i last (s :: ss), m⟩ ⟨d, .statements i v ss, m'⟩
  | body {d g vs m} (harity : g.arity = vs.length) : Part ⟨d + 1, .call g vs, m⟩
    ⟨d, .block m.store.frames.size g.body, m.entering g vs⟩

/-- The second evaluation is the first one, or is made in the course of it. -/
def Contains : Evaluation → Evaluation → Prop := Relation.ReflTransGen Part

end Evaluation

/-! ### What a contract says of parts -/

/-- The frame of a task is as `P` says, and the values that it is given as `Q` says. -/
def Task.Fits (P : FrameId → Prop) (Q : Value → Prop) : Task → Prop
  | .expr i _ => P i
  | .exprs i _ => P i
  | .block i _ => P i
  | .statement i _ => P i
  | .statements i last _ => P i ∧ Q last
  | .call g vs => Q (.function g) ∧ ∀ v ∈ vs, Q v

section
variable {I : Store → Prop} {P : FrameId → Prop} {Q : Value → Prop}

theorem Run.Meets.single {R : Interrupt → Prop} {r : Run Value} (h : r.Meets I R Q) :
    (do let v ← r; pure [v] : Run (List Value)).Meets I R fun vs => ∀ v ∈ vs, Q v :=
  h.bind fun _ hv => Run.meets_pure (List.forall_mem_singleton.mpr hv)

/-- What comes of a task is as the contract promises. -/
theorem Task.run_meets (c : CallContract .none I P Q (Interrupt.Returns Q)) (depth : Nat)
    {task : Task} (h : task.Fits P Q) :
    (task.run depth).Meets I (Interrupt.Returns Q) fun vs => ∀ v ∈ vs, Q v := by
  have hcall := c.obeys depth
  have hn : 0 ≤ 0 := Nat.le_refl 0
  cases task with
  | expr i e => exact Run.Meets.single ((c.rules h).expr hcall hn e trivial)
  | exprs i es => exact (c.rules h).exprs hcall hn es trivial
  | block i b => exact Run.Meets.single ((c.rules h).block hcall hn b trivial)
  | statement i s => exact Run.Meets.single ((c.rules h).statement hcall hn s trivial)
  | statements i last ss =>
    exact Run.Meets.single ((c.rules h.1).statements hcall hn last h.2 ss trivial)
  | call g vs => exact Run.Meets.single (hcall g vs 0 h.1 h.2)

end

namespace Evaluation

variable {I : Store → Prop} {P : FrameId → Prop} {Q : Value → Prop} {x y : Evaluation}

/-- An evaluation that starts as a contract asks for. -/
structure Begins (I : Store → Prop) (P : FrameId → Prop) (Q : Value → Prop) (x : Evaluation) :
    Prop where
  store : I x.start.store
  task : x.task.Fits P Q

theorem Begins.allows (c : CallContract .none I P Q (Interrupt.Returns Q)) (h : x.Begins I P Q) :
    Run.Allows I (Interrupt.Returns Q) (fun vs => ∀ v ∈ vs, Q v) x.outcome :=
  Task.run_meets c x.depth h.task x.start h.store

theorem Begins.after (c : CallContract .none I P Q (Interrupt.Returns Q)) (h : x.Begins I P Q) :
    I x.after.store :=
  (Task.run_meets c x.depth h.task).after h.store

/-- If an evaluation starts as the contract asks for, so does every part of it. -/
theorem Begins.part (c : CallContract .none I P Q (Interrupt.Returns Q)) (h : x.Begins I P Q)
    (hpart : x.Part y) : y.Begins I P Q := by
  obtain ⟨hstore, htask⟩ := h
  have hn : 0 ≤ 0 := Nat.le_refl 0
  -- What is evaluated first leaves the store as the contract says, with a value as it says.
  have hexpr {d i e m v m'} (hm : I m.store) (hi : P i)
      (he : Expr.eval (Closure.call d) i e m = .ok v m') : I m'.store ∧ Q v := by
    have hallows := (c.rules hi).expr (c.obeys d) hn e trivial m hm
    rwa [he] at hallows
  cases hpart with
  | operand => exact ⟨hstore, htask⟩
  | left => exact ⟨hstore, htask⟩
  | right hl => exact ⟨(hexpr hstore htask hl).1, htask⟩
  | test => exact ⟨hstore, htask⟩
  | branch hc _ => exact ⟨(hexpr hstore htask hc).1, htask⟩
  | condition => exact ⟨hstore, htask⟩
  | consequence hc _ => exact ⟨(hexpr hstore htask hc).1, htask⟩
  | alternative hc _ => exact ⟨(hexpr hstore htask hc).1, htask⟩
  | callee => exact ⟨hstore, htask⟩
  | arguments hf => exact ⟨(hexpr hstore htask hf).1, htask⟩
  | @application d i _ _ es _ _ m' _ _ hf hes =>
    obtain ⟨hm, hg⟩ := hexpr hstore htask hf
    have hallows := (c.rules htask).exprs (c.obeys d) hn es trivial m' hm
    rw [hes] at hallows
    exact ⟨hallows.1, hg, hallows.2⟩
  | head => exact ⟨hstore, htask⟩
  | tail he => exact ⟨(hexpr hstore htask he).1, htask⟩
  | statements => exact ⟨hstore, htask, c.null⟩
  | initializer => exact ⟨hstore, htask⟩
  | returned => exact ⟨hstore, htask⟩
  | expression => exact ⟨hstore, htask⟩
  | first => exact ⟨hstore, htask.1⟩
  | @next d i _ s _ m _ _ hs =>
    have hallows := (c.rules htask.1).statement (c.obeys d) hn s trivial m hstore
    rw [hs] at hallows
    exact ⟨hallows.1, htask.1, hallows.2⟩
  | body _ =>
    obtain ⟨hpush, hframe⟩ := c.push hstore htask.1 htask.2
    exact ⟨hpush, hframe⟩

theorem Begins.contains (c : CallContract .none I P Q (Interrupt.Returns Q)) (h : x.Begins I P Q)
    (hy : x.Contains y) : y.Begins I P Q := by
  induction hy with
  | refl => exact h
  | tail _ hpart ih => exact ih.part c hpart

end Evaluation

end LetLang
