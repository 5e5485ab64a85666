import LetLang.Evaluation
import LetLang.Parsing

/-! Running source texts one after another.

A text with errors is not run at all. Otherwise its statements are evaluated in a frame of
the store, and the bindings they make are there for the texts that follow. -/
namespace LetLang

/-- Why a source text has no value. -/
inductive Failure where
  | malformed (errors : List SyntaxError)
  | stopped (error : RuntimeError)

/-- The messages of all errors, one on a line. -/
def Failure.message : Failure → String
  | .malformed errors => "\n".intercalate (errors.map SyntaxError.message)
  | .stopped e => e.message

/-- The value of a program, or the error that it ended with. -/
def Value.outcome : Value → Except Failure Value
  | .error e => .error (.stopped e)
  | v => .ok v

/-- What running a source text gives: its outcome, unless calls are nested too deeply; the
store afterwards; and the trace of parsing and evaluation. -/
structure Execution where
  outcome : Option (Except Failure Value)
  store : Store
  trace : List Entry

/-- Runs a source text in a frame of a store, nesting calls up to `depth`. -/
def execute (depth : Nat) (frame : FrameId) (s : Store) (source : String) : Execution :=
  let parsed := parse source
  if parsed.errors.isEmpty then
    let (v, m) := parsed.program.eval depth frame (.on s)
    ⟨v.map Value.outcome, m.store, parsed.trace ++ m.events.toList.map .event⟩
  else ⟨some (.error (.malformed parsed.errors)), s, parsed.trace⟩

theorem execute_of_errors_eq_nil (depth : Nat) (i : FrameId) (s : Store) {source : String}
    (h : (parse source).errors = []) :
    (execute depth i s source).outcome =
        ((parse source).program.eval depth i (.on s)).1.map Value.outcome ∧
      (execute depth i s source).store = ((parse source).program.eval depth i (.on s)).2.store := by
  simp [execute, h]

theorem execute_of_errors_ne_nil (depth : Nat) (i : FrameId) (s : Store) {source : String}
    (h : (parse source).errors ≠ []) :
    (execute depth i s source).outcome = some (.error (.malformed (parse source).errors)) ∧
      (execute depth i s source).store = s := by
  simp [execute, h]

end LetLang
