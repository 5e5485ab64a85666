import LetLang.Store
import LetLang.Trace

/-! The machine that programs run on.

Running changes the store and records events. A run may be interrupted: by a `return` on its
way to the call it ends, by an error on its way to the end of the program, or because calls
are nested more deeply than the machine allows. -/
namespace LetLang

/-- What a run changes. -/
structure Machine where
  store : Store
  events : Array Event

/-- A machine that has recorded nothing yet. -/
def Machine.on (s : Store) : Machine := ⟨s, #[]⟩

/-- Why a run stopped early. -/
inductive Interrupt where
  | returned (value : Value)
  | failed (error : RuntimeError)
  | exhausted

/-- A run that ends with an `α` or is interrupted, and changes the machine either way. -/
abbrev Run := EStateM Interrupt Machine

namespace Run

/-- Records an event. -/
def record (e : Event) : Run Unit := modify fun m => { m with events := m.events.push e }

/-- Ends the program with an error. -/
def fail {α : Type} (e : RuntimeError) : Run α := throw (.failed e)

/-- Goes on with a result, or ends the program with an error. -/
def ofExcept {α : Type} : Except RuntimeError α → Run α
  | .ok a => pure a
  | .error e => fail e

/-- The value of a name, which must be bound. -/
def lookup (frame : FrameId) (name : String) : Run Value := do
  match (← get).store.lookup frame name with
  | some v => pure v
  | none => fail (.unknownIdentifier name)

/-- Binds a name in a frame. -/
def define (frame : FrameId) (name : String) (v : Value) : Run Unit :=
  modify fun m => { m with store := m.store.define frame name v }

/-- Makes a frame. -/
def newFrame (f : Frame) : Run FrameId :=
  modifyGet fun m => (m.store.frames.size, { m with store := m.store.push f })

/-- Makes a function. -/
def newFunction (parameters : List Identifier) (body : Block) (frame : FrameId) : Run Value :=
  modifyGet fun m =>
    (.function ⟨m.store.functions, parameters, body, frame⟩,
      { m with store := { m.store with functions := m.store.functions + 1 } })

/-- A run in which a `return` is over: its value is the value of the run. -/
def catchReturn (r : Run Value) : Run Value := fun m =>
  match r m with
  | .error (.returned v) m => .ok v m
  | result => result

end Run

end LetLang
