import LetLang.Text.Pattern.Mode

/-! Sets in brackets.

Between brackets stand characters, ranges, classes and further brackets, which are joined.
Doubled signs take what is common to what stands on their left and on their right, or what is
on the left only, or on one side only; they are applied from left to right. -/
namespace LetLang.Text.Pattern

/-- A bracket that is open: whether all else is meant, what stands before the last doubled
sign with that sign's operation, and what was joined since. -/
structure OpenSet where
  negated : Bool
  before : Option (CharSet × (CharSet → CharSet → CharSet))
  items : CharSet

namespace OpenSet

/-- Joins more characters. -/
def join (o : OpenSet) (set : CharSet) : OpenSet := { o with items := .union o.items set }

/-- All that stands in the bracket. -/
def total (o : OpenSet) : CharSet :=
  match o.before with
  | some (left, operation) => operation left o.items
  | none => o.items

/-- Goes on behind a doubled sign. -/
def operate (o : OpenSet) (operation : CharSet → CharSet → CharSet) : OpenSet :=
  { o with before := some (o.total, operation), items := .empty }

/-- The set that a bracket stands for; a narrow one has no complement. -/
def close? (m : Mode) (o : OpenSet) : Option CharSet :=
  if !o.negated then some o.total else if m.wide then some (.compl o.total) else none

/-- Reads what can stand only at the start of a bracket: a circumflex if all else is meant,
and then dashes, or a closing bracket, which stand for themselves. -/
def start? (m : Mode) (cs : List Char) : Option (OpenSet × List Char) :=
  let cs := m.skip cs
  let negated := cs.head? == some '^'
  let cs := if negated then m.skip cs.tail else cs
  let dashes := cs.takeWhile (· == '-')
  let rest := m.skip (cs.drop dashes.length)
  if !dashes.isEmpty then (m.cased? (.single '-')).map fun set => (⟨negated, none, set⟩, rest)
  else
    match rest with
    | ']' :: rest => (m.cased? (.single ']')).map fun set => (⟨negated, none, set⟩, rest)
    | _ => some (⟨negated, none, .empty⟩, rest)

end OpenSet

namespace Mode

/-- Reads a class with a name between colons, behind the bracket; a circumflex before the
name takes all else. -/
def named? (cs : List Char) : Option (CharSet × Bool × List Char) :=
  match cs with
  | ':' :: cs =>
    let negated := cs.head? == some '^'
    let cs := if negated then cs.tail else cs
    match cs.dropWhile (· != ':') with
    | ':' :: ']' :: rest =>
      (CharSet.named.lookup (String.ofList (cs.takeWhile (· != ':')))).map fun set =>
        (set, negated, rest)
    | _ => none
  | _ => none

/-- The set of a class with a name; a narrow one has no complement. -/
def namedSet? (m : Mode) (set : CharSet) (negated : Bool) : Option CharSet := do
  let set ← m.cased? set
  if !negated then return set else if m.wide then return .compl set else none

/-- An end of a range. -/
def bound? (m : Mode) : Part → Option Char
  | .char c _ => if m.admits c then some c else none
  | _ => none

/-- The characters from one to another, which must not come before it. -/
def range? (m : Mode) (first last : Part) : Option CharSet := do
  let a ← m.bound? first
  let b ← m.bound? last
  if a ≤ b then m.cased? (.range a b) else none

/-- Reads a part or a range. A dash in front of the closing bracket or of another dash makes
no range. -/
def item? (m : Mode) (cs : List Char) : Option (CharSet × List Char) := do
  let (first, rest) ← m.part? cs
  match m.skip rest with
  | '-' :: more =>
    let next := m.skip more
    if next.head? == some ']' || next.head? == some '-' then
      return (← m.set? first, '-' :: more)
    else
      let (last, rest) ← m.part? next
      return (← m.range? first last, rest)
  | rest => return (← m.set? first, rest)

/-- Reads one thing that stands in a bracket, or closes it. The brackets around it come with
it, the innermost first. -/
def setStep (m : Mode) (brackets : OpenSet × List OpenSet) (cs : List Char) :
    Option (((OpenSet × List OpenSet) ⊕ CharSet) × List Char) :=
  let (o, outer) := brackets
  match m.skip cs with
  | [] => none
  | ']' :: rest => do
    let set ← o.close? m
    match outer with
    | [] => return (.inr set, rest)
    | p :: outer => return (.inl (p.join set, outer), rest)
  | '&' :: '&' :: rest => some (.inl (o.operate .inter, outer), rest)
  | '-' :: '-' :: rest => some (.inl (o.operate .diff, outer), rest)
  | '~' :: '~' :: rest => some (.inl (o.operate .symmDiff, outer), rest)
  | '[' :: rest =>
    match named? rest with
    | some (set, negated, rest) =>
      (m.namedSet? set negated).map fun set => (.inl (o.join set, outer), rest)
    | none => (OpenSet.start? m rest).map fun (inner, rest) => (.inl (inner, o :: outer), rest)
  | cs => (m.item? cs).map fun (set, rest) => (.inl (o.join set, outer), rest)

/-- Reads a set whose bracket was opened. -/
def bracket? (m : Mode) (cs : List Char) : Option (CharSet × List Char) := do
  let (o, rest) ← OpenSet.start? m cs
  runSteps m.setStep (o, []) rest

end Mode

end LetLang.Text.Pattern
