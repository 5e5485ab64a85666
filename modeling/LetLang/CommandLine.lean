import LetLang.Log
import LetLang.Repl

/-! The command line.

Without a script the program holds an interactive session on its input. With one it runs the
script, or the file that it names, and ends with code 0 if there is a value, which is shown
only in pipe mode, and with code 1 otherwise. Arguments that make no sense give code 2.

What a run of the program does is a function of the arguments, of the files it may read, of
its input and of the log setting of its environment. The log itself is kept by a writer, which is
the standard one (`run`). -/
namespace LetLang.CommandLine

variable {Filter : Type}

/-! ### Options -/

/-- What the arguments ask for. -/
structure Options where
  file : Bool
  pipe : Bool
  trace : Bool
  script : Option String

/-- Nothing is asked for. -/
def Options.initial : Options := ⟨false, false, false, none⟩

/-- Why arguments make no sense. -/
inductive UsageError where
  | unexpected (argument : String)
  | repeated (flag : String)

/-- Why reading the arguments stopped. -/
inductive Stop where
  | showVersion
  | misused (error : UsageError)

/-- An argument that is set or not. -/
inductive Flag where
  | file
  | pipe
  | trace
  | version

namespace Flag

/-- The letter of a flag, for use behind a single dash. -/
def letter : Flag → Char
  | file => 'f'
  | pipe => 'p'
  | trace => 't'
  | version => 'V'

/-- The name of a flag, for use behind two dashes. -/
def name : Flag → String
  | file => "file"
  | pipe => "pipe-mode"
  | trace => "trace"
  | version => "version"

/-- All flags. -/
def all : List Flag := [file, pipe, trace, version]

end Flag

namespace Options

/-- Sets a flag, which must not be set already. -/
def raise (o : Options) (f : Flag) : Except Stop Options :=
  let set (already : Bool) (o : Options) : Except Stop Options :=
    if already then .error (.misused (.repeated f.name)) else .ok o
  match f with
  | .file => set o.file { o with file := true }
  | .pipe => set o.pipe { o with pipe := true }
  | .trace => set o.trace { o with trace := true }
  | .version => .error .showVersion

/-- Takes the script, of which there must be one only. -/
def place (o : Options) (argument : String) : Except Stop Options :=
  match o.script with
  | none => .ok { o with script := some argument }
  | some _ => .error (.misused (.unexpected argument))

/-- Sets a flag if the argument is one. -/
def raise? (o : Options) (argument : String) (flag : Option Flag) : Except Stop Options :=
  match flag with
  | some f => o.raise f
  | none => .error (.misused (.unexpected argument))

/-- Takes one argument: flags by their letters behind a dash, a flag by its name behind two
dashes, or the script. -/
def take (o : Options) (argument : String) : Except Stop Options :=
  match argument.toList with
  | '-' :: '-' :: cs =>
    o.raise? argument (Flag.all.find? fun f => f.name == String.ofList cs)
  | '-' :: c :: cs =>
    (c :: cs).foldlM (fun o c => o.raise? argument (Flag.all.find? fun f => f.letter == c)) o
  | _ => o.place argument

/-- Takes all arguments, from left to right; behind `--` none is a flag. -/
def takeAll (o : Options) : List String → Except Stop Options
  | [] => .ok o
  | a :: rest =>
    if a = "--" then rest.foldlM place o
    else do
      let o ← o.take a
      o.takeAll rest

/-- What the arguments ask for. -/
def parse (arguments : List String) : Except Stop Options := initial.takeAll arguments

/-- What the log shows: everything if it is asked for, and otherwise what the environment
says, if it says something that makes sense. -/
def logFilter (o : Options) (writer : Log.Writer Filter) (setting : Option String) : Filter :=
  if o.trace then writer.verbose else (setting.bind writer.parse?).getD writer.quiet

end Options

/-! ### Running -/

/-- What a run of the program shows, and the code that it ends with. -/
structure Output where
  code : Nat
  stdout : String
  stderr : String

/-- What the program knows of its surroundings. -/
structure Surroundings where
  contents : String → Option (List UInt8)
  input : List UInt8
  logSetting : Option String

/-- The name and version of the program. -/
def version : String := "quill 0.1.0"

/-- The complaint about arguments that make no sense. -/
def UsageError.message : UsageError → String
  | .unexpected argument => "error: unexpected argument '" ++ argument ++ "' found"
  | .repeated flag => "error: the argument '--" ++ flag ++ "' cannot be used multiple times"

/-- The complaint about a file that cannot be read as text. -/
def unreadable (name : String) : String :=
  "Failed to read the input file '" ++ name ++ "'. Perhaps this file does not exist?"

/-- How the program ends when the arguments could not be read. -/
def Stop.output : Stop → Output
  | .showVersion => ⟨0, version ++ "\n", ""⟩
  | .misused e => ⟨2, "", e.message ++ "\n"⟩

/-- The source text to run. -/
def Options.source? (o : Options) (w : Surroundings) (script : String) : Option String :=
  if o.file then (w.contents script).bind Text.Utf8.decode? else some script

/-- How the program ends after running a script, whose log has been shown. -/
def Options.finish (o : Options) (log : String) : Except Failure Value → Output
  | .ok v => ⟨0, if o.pipe then v.render ++ "\n" else "", log⟩
  | .error e => ⟨1, "", log ++ e.message ++ "\n"⟩

/-- Runs a script, unless calls are nested deeper than `depth`. -/
def Options.runScript (o : Options) (writer : Log.Writer Filter) (depth : Nat) (w : Surroundings)
    (script : String) : Option Output :=
  let log := writer.text (o.logFilter writer w.logSetting)
  match o.source? w script with
  | none => some ⟨1, "", log [] ++ unreadable script ++ "\n"⟩
  | some source =>
    let x := execute depth Store.rootFrame Store.root source
    x.outcome.map (o.finish (log x.trace))

/-- Holds an interactive session, unless calls are nested deeper than `depth`. -/
def Options.runSession (o : Options) (writer : Log.Writer Filter) (depth : Nat) (w : Surroundings) :
    Option Output :=
  (Repl.run depth w.input).map fun t =>
    ⟨0, t.output, writer.text (o.logFilter writer w.logSetting) t.trace⟩

/-- Does what the arguments ask for, unless calls are nested deeper than `depth`. -/
def Options.run (o : Options) (writer : Log.Writer Filter) (depth : Nat) (w : Surroundings) :
    Option Output :=
  match o.script with
  | some script => o.runScript writer depth w script
  | none => o.runSession writer depth w

/-- Runs the program with the standard log, unless calls are nested deeper than `depth`. -/
def run (depth : Nat) (w : Surroundings) (arguments : List String) : Option Output :=
  match Options.parse arguments with
  | .error stop => some stop.output
  | .ok o => o.run Log.standard depth w

end LetLang.CommandLine
