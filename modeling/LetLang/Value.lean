import LetLang.RuntimeError
import LetLang.Syntax.Printer

/-! Values.

A value is a 64-bit integer, a truth value, `null`, a function, or an error that ended a
program. A function is a closure: its code together with the frame in which the code stood,
by number. Each evaluation of a function literal makes a function of its own, told apart
from all others by its identity. -/
namespace LetLang

/-- The number of a frame, in the order in which frames are made. -/
abbrev FrameId := Nat

/-- A function: its code and the frame that the code refers to. -/
structure Closure where
  identity : Nat
  parameters : List Identifier
  body : Block
  frame : FrameId

/-- What an expression evaluates to. -/
inductive Value where
  | integer (n : Int64)
  | boolean (b : Bool)
  | null
  | function (f : Closure)
  | error (e : RuntimeError)

/-- How many arguments a function takes. -/
def Closure.arity (f : Closure) : Nat := f.parameters.length

/-- A function is shown as the literal it was made from. -/
def Closure.render (f : Closure) : String :=
  "fn(" ++ commaSeparated (f.parameters.map Identifier.name) ++ ") " ++ f.body.render

namespace Value

/-- The kind of a value. -/
def kind : Value → ValueKind
  | integer _ => .integer
  | boolean _ => .boolean
  | null => .null
  | function _ => .function
  | error _ => .error

/-- Only `false` and `null` fail a condition. -/
def truthy : Value → Bool
  | boolean b => b
  | null => false
  | _ => true

/-- The text of a value. -/
def render : Value → String
  | integer n => toString n.toInt
  | boolean b => if b then "true" else "false"
  | null => "null"
  | function f => f.render
  | error e => "ERROR: " ++ e.message

/-- Functions are the same by identity, everything else by what it is. -/
def same : Value → Value → Bool
  | integer n, integer m => n == m
  | boolean b, boolean c => b == c
  | null, null => true
  | function f, function g => f.identity == g.identity
  | error e, error f => e == f
  | _, _ => false

end Value

end LetLang
