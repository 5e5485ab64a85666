import LetLang.Arithmetic
import LetLang.Machine

/-! Evaluating a program.

Evaluation follows the tree: operands from left to right, statements in order, the value of
a sequence being that of its last statement. Blocks open no scope; only a call makes a
frame, inside the frame of the function and not of the caller. A name bound by `let` is
bound in the frame at hand.

What a call does is a parameter, so that evaluation is a recursion on the tree alone.
`Closure.call` ties the knot: it allows calls to be nested up to a given depth, and a run
that goes deeper is interrupted as `exhausted`. -/
namespace LetLang

/-- What calling a function on values does. -/
abbrev Calling := Closure → List Value → Run Value

mutual

/-- The value of an expression in a frame. -/
def Expr.eval (call : Calling) (frame : FrameId) : Expr → Run Value
  | .identifier i => Run.lookup frame i.name
  | .integer _ n => pure (.integer n)
  | .boolean _ b => pure (.boolean b)
  | .unary _ op e => do
    let v ← e.eval call frame
    Run.ofExcept (op.apply v)
  | .binary _ l op r => do
    let v ← l.eval call frame
    let w ← r.eval call frame
    Run.ofExcept (op.apply v w)
  | .ifThen _ c b => do
    let v ← c.eval call frame
    if v.truthy then b.eval call frame else pure .null
  | .ifThenElse _ c b a => do
    let v ← c.eval call frame
    if v.truthy then b.eval call frame else a.eval call frame
  | .function _ ps b => Run.newFunction ps b frame
  | .call _ f es => do
    match ← f.eval call frame with
    | .function g => do
      let vs ← Expr.evalAll call frame es
      call g vs
    | v => Run.fail (.notAFunction v.kind)

/-- The values of several expressions, from left to right. -/
def Expr.evalAll (call : Calling) (frame : FrameId) : List Expr → Run (List Value)
  | [] => pure []
  | e :: es => do
    let v ← e.eval call frame
    let vs ← Expr.evalAll call frame es
    pure (v :: vs)

/-- The value of a block in a frame. -/
def Block.eval (call : Calling) (frame : FrameId) : Block → Run Value
  | .mk _ ss => Statement.evalAll call frame .null ss

/-- The value of a statement, whose evaluation is recorded. A `let` has the value that it
binds; a `return` interrupts. -/
def Statement.eval (call : Calling) (frame : FrameId) (s : Statement) : Run Value := do
  Run.record (.evaluating s)
  match s with
  | .letIn _ i e => do
    let v ← e.eval call frame
    Run.define frame i.name v
    pure v
  | .returnNothing _ => throw (.returned .null)
  | .returnValue _ e => do
    let v ← e.eval call frame
    throw (.returned v)
  | .expression _ e => e.eval call frame

/-- The value of the last of several statements, or `last` if there is none. -/
def Statement.evalAll (call : Calling) (frame : FrameId) (last : Value) :
    List Statement → Run Value
  | [] => pure last
  | s :: ss => do
    let v ← s.eval call frame
    Statement.evalAll call frame v ss

end

/-- Calls a function, nesting calls up to `depth`. -/
def Closure.call (depth : Nat) (f : Closure) (arguments : List Value) : Run Value := do
  if f.arity = arguments.length then
    Run.record (.calling f.arity)
    match depth with
    | 0 => throw .exhausted
    | depth + 1 => do
      let frame ← Run.newFrame (.ofCall f arguments)
      Run.catchReturn (f.body.eval (Closure.call depth) frame)
  else Run.fail (.argumentCount f.arity arguments.length)

/-- Runs a program in a frame. A `return` outside all functions ends it with a value, and an
error is a value too; no value comes out only if calls are nested too deeply. -/
def Program.eval (depth : Nat) (frame : FrameId) (p : Program) (m : Machine) :
    Option Value × Machine :=
  match Statement.evalAll (Closure.call depth) frame .null p.statements m with
  | .ok v m => (some v, m)
  | .error (.returned v) m => (some v, m)
  | .error (.failed e) m => (some (.error e), m)
  | .error .exhausted m => (none, m)

end LetLang
