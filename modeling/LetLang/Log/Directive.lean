import LetLang.Text.Category
import LetLang.Text.Pattern.Reading
import LetLang.Trace

/-! Directives of the log.

A directive asks for a level of detail. In front of the level stands what the directive is
about: the start of the names of some parts of the program, and in brackets the spans within
which it holds, by their name, by a field in braces, or by both. A level alone is about the
whole program, and where no level is written all detail is asked for. -/
namespace LetLang.Log

open LetLang.Text

/-- What a directive asks of the field that it names. -/
inductive FieldTest where
  /-- The field exists. -/
  | present
  /-- The field holds this number. -/
  | number (n : Nat)
  /-- The field holds a text that fits a pattern, which is kept as it was written too. -/
  | fits (written : String) (pattern : Pattern)
  /-- The field holds something of a kind that no field holds. -/
  | impossible
  deriving DecidableEq

/-- Does a value pass the test? -/
def FieldTest.passes : FieldTest → FieldValue → Bool
  | present, _ => true
  | number n, .number m => n = m
  | fits _ p, .text s => p.fits s
  | _, _ => false

/-- A field that a directive names. -/
structure FieldPattern where
  name : String
  test : FieldTest
  deriving DecidableEq

/-- What a directive is about. The empty target is the whole program, and no span stands for
all of them. -/
structure Scope where
  target : String
  span : Option String
  field : Option FieldPattern
  deriving DecidableEq

/-- A level of detail for a scope; none is asked for if there is no level. -/
structure Directive where
  scope : Scope
  level : Option Level

/-! ### Levels -/

/-- The place of a level, from little detail to much. -/
def rank : Level → Nat
  | .error => 1
  | .warn => 2
  | .info => 3
  | .debug => 4
  | .trace => 5

/-- The levels of detail that can be asked for, by their names and in the order of their
numbers. -/
def levels : List (String × Option Level) :=
  [("off", none), ("error", some .error), ("warn", some .warn), ("info", some .info),
    ("debug", some .debug), ("trace", some .trace)]

/-- Are these decimal digits, at least one? -/
def isDigits (cs : List Char) : Bool := !cs.isEmpty && cs.all Char.isDigit

/-- The number that a text writes in decimal digits, a plus in front of them or not. -/
def number? (text : String) : Option Nat :=
  let digits :=
    match text.toList with
    | '+' :: cs => cs
    | cs => cs
  if isDigits digits then some (Nat.ofDigitChars 10 digits 0) else none

/-- The level of detail that a word asks for, by number or by name. -/
def level? (word : String) : Option (Option Level) :=
  match number? word with
  | some n => levels[n]?.map Prod.snd
  | none => levels.lookup word.toLower

/-! ### Fields -/

/-- Leaves out a sign in front. -/
def unsigned : List Char → List Char
  | '+' :: cs => cs
  | '-' :: cs => cs
  | cs => cs

/-- Is this a decimal number without a sign, with a point, an exponent, both or neither? -/
def isDecimal (cs : List Char) : Bool :=
  let whole := cs.takeWhile Char.isDigit
  let rest := cs.dropWhile Char.isDigit
  let pointed := rest.head? == some '.'
  let fraction := if pointed then rest.tail.takeWhile Char.isDigit else []
  let rest := if pointed then rest.tail.dropWhile Char.isDigit else rest
  isDigits (whole ++ fraction)
    && match rest with
      | [] => true
      | c :: exponent => c.toLower == 'e' && isDigits (unsigned exponent)

/-- Is this a truth value or a number that is no count? No field holds such a thing. -/
def isForeign (text : String) : Bool :=
  let size := unsigned text.toList
  text ∈ ["true", "false"] || isDecimal size
    || (String.ofList size).toLower ∈ ["inf", "infinity", "nan"]

/-- A field is asked for a count, or for a text that fits a pattern. -/
def FieldTest.parse? (text : String) : Option FieldTest :=
  match number? text with
  | some n => some (number n)
  | none => if isForeign text then some impossible else (Pattern.parse? text).map (fits text)

/-- A field is named alone, or with what is asked of it behind `=`. -/
def FieldPattern.parse? (text : String) : Option FieldPattern :=
  match text.splitOn "=" with
  | name :: value :: _ => (FieldTest.parse? value).map (mk name)
  | _ => if text.isEmpty then none else some ⟨text, .present⟩

/-! ### Places in a directive -/

/-- A place in a directive: the text from there on without the blanks around the directive,
by which its parts are found, and as many characters behind the start of the whole text, from
which they are taken. The two differ only if there are such blanks. -/
structure Place where
  seen : List Char
  taken : List Char

namespace Place

/-- The start of a directive. -/
def start (text : String) : Place :=
  let seen := (text.toList.dropWhile isBlank).reverse.dropWhile isBlank
  ⟨seen.reverse, text.toList⟩

/-- The place some characters further on. -/
def skip (p : Place) (n : Nat) : Place := ⟨p.seen.drop n, p.taken.drop n⟩

/-- How far the characters go that satisfy `q`. -/
def reach (p : Place) (q : Char → Bool) : Nat := (p.seen.takeWhile q).length

/-- The text of some characters from here on. -/
def cut (p : Place) (n : Nat) : String := String.ofList (p.taken.take n)

/-- The text from here to the end. -/
def rest (p : Place) : String := String.ofList p.taken

end Place

/-! ### Reading -/

/-- Reads a field behind its brace, with the brace and the bracket that close it. -/
def FieldPattern.read? (p : Place) : Option (FieldPattern × Place) :=
  let n := p.reach (· != '}')
  match (p.skip n).seen with
  | '}' :: ']' :: _ => (FieldPattern.parse? (p.cut n)).map fun field => (field, p.skip (n + 2))
  | _ => none

/-- Reads what follows an opening bracket, with the closing one. A span is named by its name,
by a field in braces behind it, or by the field alone. -/
def Scope.read? (target : String) (p : Place) : Option (Scope × Place) :=
  let n := p.reach fun c => c != ']' && c != '{'
  let name := p.cut n
  match (p.skip n).seen with
  | ']' :: _ => some (⟨target, some name, none⟩, p.skip (n + 1))
  | '{' :: _ =>
    (FieldPattern.read? (p.skip (n + 1))).map fun (field, q) =>
      (⟨target, if name.isEmpty then none else some name, some field⟩, q)
  | _ => none

namespace Directive

/-- Reads the level behind `=`, where nothing asks for all detail. -/
def levelOf? (word : String) : Option (Option Level) :=
  if word.isEmpty then some (some .trace) else level? word

/-- Reads what follows a closing bracket: a level behind `=`, or nothing. -/
def levelBehind? (p : Place) : Option (Option Level) :=
  match p.seen with
  | [] => some (some .trace)
  | '=' :: _ => levelOf? (p.skip 1).rest
  | _ => none

/-- A word that is no level is a target. -/
def ofWord (word : String) : Directive :=
  match level? word with
  | some level => ⟨⟨"", none, none⟩, level⟩
  | none => ⟨⟨word, none, none⟩, some .trace⟩

/-- Directives start with a letter, a digit, or one of the signs that can stand in a name or
in front of one. -/
def starts (c : Char) : Bool := isAlphanumeric c || c ∈ ['[', '-', ':', '_']

/-- Reads a directive. -/
def parse? (text : String) : Option Directive :=
  let p := Place.start text
  if !p.seen.head?.any starts then none
  else
    let n := p.reach fun c => c != '=' && c != '['
    let target := p.cut n
    match (p.skip n).seen with
    | [] => some (ofWord p.rest)
    | '[' :: _ => do
      let (scope, q) ← Scope.read? target (p.skip (n + 1))
      return ⟨scope, ← levelBehind? q⟩
    | _ => (levelOf? (p.skip (n + 1)).rest).map (mk ⟨target, none, none⟩)

end Directive

end LetLang.Log
