import LetLang.Session
import LetLang.Text.Utf8

/-! The interactive session.

A session reads lines, each up to and with its line feed, and answers one after another.
A line with errors is answered by its errors, each on a line of its own behind a tab, and
changes nothing; any other line is answered by its value, and its bindings are there for the
lines that follow. The prompt stands before every line that is read, and once more where the
input ends. -/
namespace LetLang.Repl

/-- What is shown before a line is read. -/
def prompt : String := ">> "

/-- The lines of an input, each with its line feed; the last one may lack it. -/
def lines : List UInt8 → List (List UInt8)
  | [] => []
  | b :: bs =>
    if b = 10 then [b] :: lines bs
    else
      match lines bs with
      | [] => [[b]]
      | l :: ls => (b :: l) :: ls

/-- The answer to a line, the store after it, and the trace it leaves. -/
structure Answer where
  text : String
  store : Store
  trace : List Entry

/-- How an outcome is shown. -/
def showOutcome : Except Failure Value → String
  | .ok v => v.render ++ "\n"
  | .error (.stopped e) => (Value.error e).render ++ "\n"
  | .error (.malformed es) => String.join (es.map fun e => "\t" ++ e.message ++ "\n")

/-- What an outcome adds to the trace. -/
def rejection : Except Failure Value → List Entry
  | .error (.malformed es) => [.event (.lineRejected es.length)]
  | _ => []

/-- Answers a line, unless calls are nested deeper than `depth`. -/
def answer (depth : Nat) (line : List UInt8) (s : Store) : Option Answer :=
  let x := execute depth Store.rootFrame s (Text.Utf8.decodeLossy line)
  x.outcome.map fun outcome => ⟨showOutcome outcome, x.store, x.trace ++ rejection outcome⟩

/-- All that a session shows, and the trace it leaves. -/
structure Transcript where
  output : String
  trace : List Entry

/-- The session over some lines. -/
def transcript (depth : Nat) (s : Store) : List (List UInt8) → Option Transcript
  | [] => some ⟨prompt, []⟩
  | line :: rest =>
    match answer depth line s with
    | none => none
    | some a =>
      (transcript depth a.store rest).map fun t =>
        ⟨prompt ++ a.text ++ t.output, a.trace ++ t.trace⟩

/-- The session over an input, with no bindings at its start. -/
def run (depth : Nat) (input : List UInt8) : Option Transcript :=
  transcript depth Store.root (lines input)

end LetLang.Repl
