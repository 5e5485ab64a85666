import LetLang.Text.Pattern.Bracket

/-! Reading patterns.

Parentheses group, a bar parts alternatives, and `*`, `+` and `?` repeat what stands in front
of them, reluctantly if another `?` follows. Groups may have a name, which tells them apart and
no more. Letters behind `(?` hold to the end of the group around them, or for the group that a
colon behind them opens. Braces stand for themselves only behind a backslash or in brackets,
except that a closing one may stand anywhere. -/
namespace LetLang.Text.Pattern

/-- A group that is open: the alternatives that are complete and the pieces of the current
one, the latest first. A switch is no piece that could be repeated. -/
structure OpenGroup where
  complete : List Pattern
  pieces : List (Option Pattern)

namespace OpenGroup

/-- Nothing is read. -/
def initial : OpenGroup := ⟨[], []⟩

/-- Adds a piece. -/
def add (g : OpenGroup) (p : Pattern) : OpenGroup := { g with pieces := some p :: g.pieces }

/-- The current alternative. -/
def current (g : OpenGroup) : Pattern := inSequence (g.pieces.filterMap id).reverse

/-- Begins another alternative. -/
def branch (g : OpenGroup) : OpenGroup := ⟨g.current :: g.complete, []⟩

/-- The pattern of the group. -/
def close (g : OpenGroup) : Pattern := g.complete.foldl (fun later p => either p later) g.current

/-- Repeats the last piece, if there is one. -/
def repeat? (g : OpenGroup) (repeated : Pattern → Pattern) : Option OpenGroup :=
  match g.pieces with
  | some p :: pieces => some { g with pieces := some (repeated p) :: pieces }
  | _ => none

end OpenGroup

/-- A pattern that is being read: how it is read, the open groups, each outer one with the way
of reading to go back to, and the names in use. -/
structure Draft where
  mode : Mode
  group : OpenGroup
  outer : List (Mode × OpenGroup)
  names : List (List Char)

namespace Draft

/-- Nothing is read. -/
def initial : Draft := ⟨.initial, .initial, [], []⟩

/-- Adds a piece. -/
def add (d : Draft) (p : Pattern) : Draft := { d with group := d.group.add p }

/-- Opens a group that is read in another way. -/
def enter (d : Draft) (m : Mode) : Draft :=
  { d with mode := m, group := .initial, outer := (d.mode, d.group) :: d.outer }

/-- Closes the innermost group. -/
def leave? (d : Draft) : Option Draft :=
  match d.outer with
  | (m, g) :: outer => some { d with mode := m, group := g.add d.group.close, outer }
  | [] => none

/-- Repeats the last piece, as often as `times` says. -/
def repeat? (d : Draft) (times : Bool → Pattern → Pattern) (rest : List Char) :
    Option (Draft × List Char) :=
  let marked := rest.head? == some '?'
  (d.group.repeat? (times (marked == d.mode.reluctant))).map fun g =>
    ({ d with group := g }, if marked then rest.tail else rest)

/-! ### Groups -/

/-- Can a name start with this character? -/
def startsName (c : Char) : Bool := c == '_' || isAlphabetic c

/-- Can a name go on with this character? -/
def continuesName (c : Char) : Bool := c ∈ ['_', '.', '[', ']'] || isAlphanumeric c

/-- Opens a group whose name begins here. -/
def named? (d : Draft) (cs : List Char) : Option (Draft × List Char) :=
  let name := cs.takeWhile (· != '>')
  match cs.dropWhile (· != '>') with
  | [] => none
  | _ :: rest =>
    if name.head?.any startsName && name.tail.all continuesName && name ∉ d.names then
      some ({ d.enter d.mode with names := name :: d.names }, rest)
    else none

/-- Reads switches up to a colon or the closing parenthesis, given those read so far, the
latest first. No letter may come twice; those behind a dash are switched off. -/
def switches? (m : Mode) (seen : List Char) : List Char → Option (Mode × List Char × List Char)
  | [] => none
  | c :: cs =>
    if c = ':' ∨ c = ')' then if seen.head? = some '-' then none else some (m, seen, c :: cs)
    else if c ∈ seen then none
    else if c = '-' then switches? m (c :: seen) cs
    else (m.switch? ('-' ∉ seen) c).bind fun m => switches? m (c :: seen) cs

/-- Reads switches, for the group that they open or for what follows. -/
def switched? (d : Draft) (cs : List Char) : Option (Draft × List Char) := do
  let (m, seen, rest) ← switches? d.mode [] cs
  match rest with
  | ':' :: rest => return (d.enter m, rest)
  | _ :: rest =>
    if seen.isEmpty then none
    else return ({ d with mode := m, group := { d.group with pieces := none :: d.group.pieces } },
      rest)
  | [] => none

/-- Reads what follows an opening parenthesis. -/
def parenthesis? (d : Draft) (cs : List Char) : Option (Draft × List Char) :=
  match d.mode.skip cs with
  | '?' :: 'P' :: '<' :: rest => d.named? rest
  | '?' :: '<' :: rest => d.named? rest
  | '?' :: rest => d.switched? rest
  | rest => some (d.enter d.mode, rest)

/-! ### Patterns -/

/-- Reads one thing of a pattern. -/
def step (d : Draft) (cs : List Char) : Option ((Draft ⊕ Pattern) × List Char) :=
  let goOn (r : Option (Draft × List Char)) : Option ((Draft ⊕ Pattern) × List Char) :=
    r.map fun (d, rest) => (.inl d, rest)
  match d.mode.skip cs with
  | [] => if d.outer.isEmpty then some (.inr d.group.close, []) else none
  | '(' :: rest => goOn (d.parenthesis? rest)
  | ')' :: rest => goOn (d.leave?.map (·, rest))
  | '|' :: rest => goOn (some ({ d with group := d.group.branch }, rest))
  | '[' :: rest => goOn ((d.mode.bracket? rest).map fun (set, rest) => (d.add (.char set), rest))
  | '?' :: rest => goOn (d.repeat? optional rest)
  | '*' :: rest => goOn (d.repeat? many rest)
  | '+' :: rest => goOn (d.repeat? atLeastOne rest)
  | '{' :: _ => none
  | '.' :: rest => goOn (d.mode.dot?.map fun p => (d.add p, rest))
  | '^' :: rest => goOn (some (d.add d.mode.lineStart, rest))
  | '$' :: rest => goOn (some (d.add d.mode.lineEnd, rest))
  | cs => goOn do
    let (part, rest) ← d.mode.part? cs
    return (d.add (← d.mode.pattern? part), rest)

end Draft

/-- Reads a pattern. -/
def parse? (text : String) : Option Pattern :=
  (runSteps Draft.step .initial text.toList).map Prod.fst

end LetLang.Text.Pattern
