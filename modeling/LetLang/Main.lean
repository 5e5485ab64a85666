import LetLang.CommandLine

/-! The program.

It hands its arguments, its environment and the script's file to `CommandLine.run`. Only the
interactive session is led from here, line by line, so that each answer is shown before the
next line is read. -/
namespace LetLang.Main

/-- Calls nested more deeply than this do not fit in any memory. -/
def depth : Nat := 4294967296

/-- The code of a run that was given up because calls were nested too deeply. -/
def gaveUp : UInt32 := 134

/-- Reads on until a line feed or the end of the input. -/
partial def readLine (input : IO.FS.Stream) (line : List UInt8) : IO (List UInt8) := do
  let next ← input.read 1
  match next.toList with
  | [] => return line.reverse
  | b :: _ => if b = 10 then return (b :: line).reverse else readLine input (b :: line)

/-- Shows a text at once. -/
def display (stream : IO.FS.Stream) (text : String) : IO Unit := do
  stream.putStr text
  stream.flush

/-- Answers the lines of the input, with the bindings made so far. -/
partial def converse (filter : Log.Filter) (s : Store) : IO UInt32 := do
  display (← IO.getStdout) Repl.prompt
  match ← readLine (← IO.getStdin) [] with
  | [] => return 0
  | line =>
    match Repl.answer depth line s with
    | none => return gaveUp
    | some a =>
      display (← IO.getStderr) (Log.standard.text filter a.trace)
      display (← IO.getStdout) a.text
      converse filter a.store

/-- The bytes of a file, if it can be read. -/
def contents? (name : String) : IO (Option (List UInt8)) := do
  try
    return some (← IO.FS.readBinFile name).toList
  catch _ =>
    return none

/-- Shows what a run of the program shows, and gives its code. -/
def finish : Option CommandLine.Output → IO UInt32
  | none => return gaveUp
  | some o => do
    display (← IO.getStdout) o.stdout
    display (← IO.getStderr) o.stderr
    return o.code.toUInt32

/-- Runs the program. -/
def run (arguments : List String) : IO UInt32 := do
  let setting ← IO.getEnv "RUST_LOG"
  match CommandLine.Options.parse arguments with
  | .ok o =>
    match o.script with
    | none => converse (o.logFilter Log.standard setting) Store.root
    | some script => do
      let file ← if o.file then contents? script else pure none
      finish (CommandLine.run depth ⟨fun _ => file, [], setting⟩ arguments)
  | .error stop => finish (some stop.output)

end LetLang.Main

def main (arguments : List String) : IO UInt32 := LetLang.Main.run arguments
