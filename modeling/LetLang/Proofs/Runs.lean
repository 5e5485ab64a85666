import LetLang.Evaluation

/-! Runs, and the machines that they leave.

A run is a chain of steps. It leaves a machine whether it ends with a value or is interrupted on the
way (`Run.after`). -/
namespace LetLang

namespace Run

variable {α β : Type}

theorem bind_apply (r : Run α) (f : α → Run β) (m : Machine) :
    (r >>= f) m =
      match r m with
      | .ok a m' => f a m'
      | .error i m' => .error i m' := by
  show EStateM.bind r f m = _
  unfold EStateM.bind
  cases r m <;> rfl

theorem lookup_apply (frame : FrameId) (name : String) (m : Machine) :
    lookup frame name m =
      match m.store.lookup frame name with
      | some v => .ok v m
      | none => .error (.failed (.unknownIdentifier name)) m := by
  rw [lookup, bind_apply]
  show (match m.store.lookup frame name with
    | some v => pure v
    | none => fail (.unknownIdentifier name)) m = _
  cases m.store.lookup frame name <;> rfl

theorem catchReturn_apply (r : Run Value) (m : Machine) :
    catchReturn r m =
      match r m with
      | .error (.returned v) m' => .ok v m'
      | result => result := rfl

/-! ### The store after a run -/

/-- The machine after a run, however it ends. -/
def after (r : Run α) (m : Machine) : Machine :=
  match r m with
  | .ok _ m' => m'
  | .error _ m' => m'

theorem after_bind (r : Run α) (f : α → Run β) (m : Machine) :
    (r >>= f).after m =
      match r m with
      | .ok a m' => (f a).after m'
      | .error _ m' => m' := by
  unfold after
  rw [bind_apply]
  cases r m <;> rfl

theorem after_catchReturn (r : Run Value) (m : Machine) : (catchReturn r).after m = r.after m := by
  unfold after
  rw [catchReturn_apply]
  cases r m with
  | ok v m' => rfl
  | error i m' => cases i <;> rfl

end Run

/-- A program leaves the machine that its statements leave. -/
theorem Program.eval_after (depth : Nat) (frame : FrameId) (p : Program) (m : Machine) :
    (p.eval depth frame m).2 =
      (Statement.evalAll (Closure.call depth) frame .null p.statements).after m := by
  unfold Program.eval Run.after
  split <;> rename_i heq <;> rw [heq]

end LetLang
