import LetLang.Evaluation

/-! What evaluation writes.

A `let` binds a name in the frame at hand, once its initializer has a value, and a call makes a
frame inside of the captured one and binds the parameters in it, one after another. Nothing else
writes. The log of a run lists these writes in the order in which they are made; it follows the code
as evaluation does (`Expr.writes`, `Closure.writes`), whether or not the run is interrupted. -/
namespace LetLang

/-- A change to the frames. -/
inductive Write where
  | frame (outer : Option FrameId)
  | binding (frame : FrameId) (name : String) (v : Value)

/-- What a run writes, from the machine that it starts on. -/
abbrev Log := Machine → List Write

/-- What calling a function on values writes. -/
abbrev Logging := Closure → List Value → Log

/-- Nothing is written. -/
def Log.nothing : Log := fun _ => []

/-- What `r` writes, whose log is `l`, and then what the run behind it writes, if `r` is not
interrupted. -/
def Run.follow {α : Type} (r : Run α) (l : Log) (f : α → Log) : Log := fun m =>
  l m ++
    match r m with
    | .ok a m' => f a m'
    | .error _ _ => []

theorem Run.follow_nothing {α : Type} (r : Run α) (l : Log) :
    r.follow l (fun _ => .nothing) = l := by
  funext m
  rw [follow]
  cases r m <;> exact List.append_nil _

/-! ### Trees -/

mutual

/-- What evaluating an expression writes. -/
def Expr.writes (call : Calling) (log : Logging) (frame : FrameId) : Expr → Log
  | .identifier _ => .nothing
  | .integer _ _ => .nothing
  | .boolean _ _ => .nothing
  | .unary _ _ e => e.writes call log frame
  | .binary _ l _ r =>
    (l.eval call frame).follow (l.writes call log frame) fun _ => r.writes call log frame
  | .ifThen _ c b =>
    (c.eval call frame).follow (c.writes call log frame) fun v =>
      if v.truthy then b.writes call log frame else .nothing
  | .ifThenElse _ c b a =>
    (c.eval call frame).follow (c.writes call log frame) fun v =>
      if v.truthy then b.writes call log frame else a.writes call log frame
  | .function _ _ _ => .nothing
  | .call _ f es =>
    (f.eval call frame).follow (f.writes call log frame) fun v =>
      match v with
      | .function g =>
        (Expr.evalAll call frame es).follow (Expr.writesAll call log frame es) fun vs => log g vs
      | _ => .nothing

/-- What evaluating several expressions writes. -/
def Expr.writesAll (call : Calling) (log : Logging) (frame : FrameId) : List Expr → Log
  | [] => .nothing
  | e :: es =>
    (e.eval call frame).follow (e.writes call log frame) fun _ =>
      Expr.writesAll call log frame es

/-- What evaluating a block writes. -/
def Block.writes (call : Calling) (log : Logging) (frame : FrameId) : Block → Log
  | .mk _ ss => Statement.writesAll call log frame ss

/-- What evaluating a statement writes. A `let` binds its name when its initializer has a value. -/
def Statement.writes (call : Calling) (log : Logging) (frame : FrameId) (s : Statement) : Log :=
  (Run.record (.evaluating s)).follow .nothing fun _ =>
    match s with
    | .letIn _ i e =>
      (e.eval call frame).follow (e.writes call log frame) fun v _ => [.binding frame i.name v]
    | .returnNothing _ => .nothing
    | .returnValue _ e => e.writes call log frame
    | .expression _ e => e.writes call log frame

/-- What evaluating several statements writes. -/
def Statement.writesAll (call : Calling) (log : Logging) (frame : FrameId) : List Statement → Log
  | [] => .nothing
  | s :: ss =>
    (s.eval call frame).follow (s.writes call log frame) fun _ =>
      Statement.writesAll call log frame ss

end

/-! ### Calls -/

/-- The machine with one more event. -/
def Machine.recording (m : Machine) (e : Event) : Machine := { m with events := m.events.push e }

/-- The machine on which the body of a function begins, in a frame of its own. -/
def Machine.entering (m : Machine) (g : Closure) (arguments : List Value) : Machine :=
  { m.recording (.calling g.arity) with store := m.store.push (.ofCall g arguments) }

/-- What passing arguments to a function writes: its frame is made, the frame number `i`, and the
parameters are bound in it. -/
def Closure.passing (g : Closure) (arguments : List Value) (i : FrameId) : List Write :=
  .frame (some g.frame) ::
    (g.parameters.zip arguments).map fun b => .binding i b.1.name b.2

/-- What a call writes: nothing, if the number of arguments is wrong or calls are nested too
deeply. -/
def Closure.writes (depth : Nat) (g : Closure) (arguments : List Value) : Log := fun m =>
  if g.arity = arguments.length then
    match depth with
    | 0 => []
    | depth + 1 =>
      let i := m.store.frames.size
      g.passing arguments i ++
        g.body.writes (Closure.call depth) (Closure.writes depth) i (m.entering g arguments)
  else []

end LetLang
