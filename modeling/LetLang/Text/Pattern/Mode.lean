import LetLang.Text.Category
import LetLang.Text.Pattern

/-! How a stretch of a pattern is to be read, and what its smallest parts stand for.

Letters behind `(?` switch the ways of reading on and off. Sets are wide and hold any
characters, or narrow and hold those of ASCII alone. Classes such as `\d`, the edges of words
and the pairs of small letters and capitals are known for ASCII only, so wide sets have none
of them; and the complement of a narrow set would not be narrow, so it has none. -/
namespace LetLang.Text.Pattern

/-- A way of reading. -/
structure Mode where
  /-- Small letters and capitals count as the same. -/
  anyCase : Bool
  /-- The ends of lines count as ends of the text. -/
  lines : Bool
  /-- A dot stands for the end of a line too. -/
  dotAll : Bool
  /-- Repetitions are greedy only if they are marked. -/
  reluctant : Bool
  /-- Sets hold characters beyond ASCII. -/
  wide : Bool
  /-- Carriage returns end lines too. -/
  returns : Bool
  /-- Blanks and comments do not count. -/
  spaced : Bool

/-- The smallest part of a pattern: a character alone, or what stands behind a backslash. -/
inductive Part where
  /-- A character, which may be written as a byte. -/
  | char (c : Char) (byte : Bool)
  /-- The characters of a class, or all others. -/
  | kind (set : CharSet) (negated : Bool)
  | anchor (a : Anchor)

namespace Mode

/-- How a pattern is read where nothing is switched. -/
def initial : Mode := ⟨false, false, false, false, true, false, false⟩

/-- Switches one way of reading on or off, by its letter. -/
def switch? (m : Mode) (on : Bool) : Char → Option Mode
  | 'i' => some { m with anyCase := on }
  | 'm' => some { m with lines := on }
  | 's' => some { m with dotAll := on }
  | 'U' => some { m with reluctant := on }
  | 'u' => some { m with wide := on }
  | 'R' => some { m with returns := on }
  | 'x' => some { m with spaced := on }
  | _ => none

/-- Skips blanks, and comments, which run from a hash to the end of the line. -/
def skipBlanks (inComment : Bool) : List Char → List Char
  | [] => []
  | c :: cs =>
    if inComment then skipBlanks (c != '\n') cs
    else if isBlank c then skipBlanks false cs
    else if c = '#' then skipBlanks true cs
    else c :: cs

/-- Skips what does not count. -/
def skip (m : Mode) (cs : List Char) : List Char := if m.spaced then skipBlanks false cs else cs

/-! ### Parts -/

/-- The value of a hexadecimal digit. -/
def hexDigit? (c : Char) : Option Nat :=
  if c.isDigit then some (c.toNat - '0'.toNat)
  else if 'a' ≤ c ∧ c ≤ 'f' then some (c.toNat - 'a'.toNat + 10)
  else if 'A' ≤ c ∧ c ≤ 'F' then some (c.toNat - 'A'.toNat + 10)
  else none

/-- Reads as many hexadecimal digits as asked for, behind others of the given value. -/
def hexValue? (m : Mode) : Nat → Nat → List Char → Option (Nat × List Char)
  | 0, value, cs => some (value, cs)
  | n + 1, value, cs =>
    match m.skip cs with
    | [] => none
    | c :: rest => (hexDigit? c).bind fun d => m.hexValue? n (16 * value + d) rest

/-- How many digits write a character behind a backslash and a letter. -/
def digitCounts : List (Char × Nat) := [('x', 2), ('u', 4), ('U', 8)]

/-- What letters and angles stand for behind a backslash. -/
def escapes : List (Char × Part) :=
  let digit := CharSet.range '0' '9'
  let space := CharSet.ofRanges [('\t', '\r'), (' ', ' ')]
  let word := CharSet.ofRanges [('0', '9'), ('A', 'Z'), ('a', 'z'), ('_', '_')]
  [('a', .char '\x07' false), ('f', .char '\x0c' false), ('t', .char '\t' false),
    ('n', .char '\n' false), ('r', .char '\r' false), ('v', .char '\x0b' false),
    ('d', .kind digit false), ('s', .kind space false), ('w', .kind word false),
    ('D', .kind digit true), ('S', .kind space true), ('W', .kind word true),
    ('A', .anchor .textStart), ('z', .anchor .textEnd), ('b', .anchor .wordEdge),
    ('B', .anchor .notWordEdge), ('<', .anchor .wordStart), ('>', .anchor .wordEnd)]

/-- Does a character stand for itself behind a backslash? The signs of ASCII do, except that
the percent sign is kept for other uses. -/
def isSign (c : Char) : Bool := c < '\x80' && !c.isAlphanum && c != '%'

/-- Reads what stands behind a backslash. -/
def escape? (m : Mode) : List Char → Option (Part × List Char)
  | [] => none
  | c :: rest =>
    match digitCounts.lookup c, escapes.lookup c with
    | some n, _ => do
      let (value, rest) ← m.hexValue? n 0 rest
      if value.isValidChar then return (.char (Char.ofNat value) (n == 2), rest) else none
    | none, some part => some (part, rest)
    | none, none => if isSign c then some (.char c false, rest) else none

/-- Reads one part, whatever it may mean where it stands. -/
def part? (m : Mode) : List Char → Option (Part × List Char)
  | [] => none
  | '\\' :: rest => m.escape? rest
  | c :: rest => some (.char c false, rest)

/-! ### What parts stand for -/

/-- A set with the other cases of its letters, if those count as the same. -/
def cased? (m : Mode) (set : CharSet) : Option CharSet :=
  if !m.anyCase then some set else if m.wide then none else some (.anyCase set)

/-- Can a set of this mode hold a character? -/
def admits (m : Mode) (c : Char) : Bool := m.wide || c < '\x80'

/-- The set of a class, or of all that is not in it. -/
def kind? (m : Mode) (set : CharSet) (negated : Bool) : Option CharSet :=
  if m.wide || negated then none else some set

/-- The characters that a part contributes to a set. -/
def set? (m : Mode) : Part → Option CharSet
  | .char c _ => if m.admits c then m.cased? (.single c) else none
  | .kind set negated => m.kind? set negated
  | .anchor _ => none

/-- The places that an anchor matches; only the ends of the text are known in wide mode. -/
def anchor? (m : Mode) (a : Anchor) : Option Anchor :=
  if m.wide && a != .textStart && a != .textEnd then none else some a

/-- What a part of a pattern matches. -/
def pattern? (m : Mode) : Part → Option Pattern
  | .char c byte => if byte && !m.admits c then none else (m.cased? (.single c)).map .char
  | .kind set negated => (m.kind? set negated).map .char
  | .anchor a => (m.anchor? a).map .anchor

/-- What a dot matches. -/
def dot? (m : Mode) : Option Pattern :=
  if !m.wide then none
  else if m.dotAll then some (.char .all)
  else some (.char (.compl (.ofList (if m.returns then ['\r', '\n'] else ['\n']))))

/-- What a circumflex matches. -/
def lineStart (m : Mode) : Pattern :=
  .anchor (if m.lines then .lineStart m.returns else .textStart)

/-- What a dollar sign matches. -/
def lineEnd (m : Mode) : Pattern := .anchor (if m.lines then .lineEnd m.returns else .textEnd)

end Mode

/-! ### Steps -/

/-- Takes steps, each of which reads something, until one yields a result. -/
def runSteps {σ α : Type} (step : σ → List Char → Option ((σ ⊕ α) × List Char)) (s : σ)
    (cs : List Char) : Option (α × List Char) :=
  match step s cs with
  | none => none
  | some (.inr a, rest) => some (a, rest)
  | some (.inl s, rest) => if rest.length < cs.length then runSteps step s rest else none
termination_by cs.length

end LetLang.Text.Pattern
