import LetLang.Text.CharSet

/-! Patterns of text.

A pattern is a regular expression whose alternatives and repetitions have an order of
preference. A search takes the leftmost place where the pattern matches, and of all matches
there the one preferred most. A text fits a pattern if the match that a search finds reaches
the end of the text.

The search keeps, in the order of preference, what is left to match after the characters read
so far. A match that is complete puts an end to all that is preferred less, so that the match
found reaches the end of the text exactly if something is complete there. -/
namespace LetLang.Text

/-- A condition on a place in a text, which its two neighbours decide. -/
inductive Anchor where
  | textStart
  | textEnd
  /-- The start of a line; with `returns`, carriage returns end lines too. -/
  | lineStart (returns : Bool)
  | lineEnd (returns : Bool)
  | wordEdge
  | notWordEdge
  | wordStart
  | wordEnd
  deriving DecidableEq

namespace Anchor

/-- Does a word of ASCII letters, digits and underscores go on here? -/
def inWord (neighbour : Option Char) : Bool := neighbour.any fun c => c.isAlphanum || c == '_'

/-- Does the condition hold between these neighbours, of which the ends of the text have one
only? A carriage return and the line feed behind it are not parted. -/
def holds (before after : Option Char) : Anchor → Bool
  | textStart => before.isNone
  | textEnd => after.isNone
  | lineStart returns =>
    before.all (· == '\n') || returns && before == some '\r' && after != some '\n'
  | lineEnd returns =>
    if returns then after.all (· == '\r') || after == some '\n' && before != some '\r'
    else after.all (· == '\n')
  | wordEdge => inWord before != inWord after
  | notWordEdge => inWord before == inWord after
  | wordStart => !inWord before && inWord after
  | wordEnd => inWord before && !inWord after

end Anchor

/-- A pattern. -/
inductive Pattern where
  | empty
  | char (set : CharSet)
  | anchor (a : Anchor)
  | seq (first second : Pattern)
  /-- Either pattern, preferably the first. -/
  | either (first second : Pattern)
  /-- Any number of repetitions, preferably many if `greedy` and few otherwise. -/
  | many (greedy : Bool) (p : Pattern)
  deriving DecidableEq

/-- How matching can go on: it is complete, or a character of a set is read first. -/
inductive Move where
  | complete
  | read (set : CharSet) (rest : Pattern)
  deriving DecidableEq

namespace Move

/-- The move with another pattern behind what it leaves. -/
def followedBy (next : Pattern) : Move → Move
  | complete => complete
  | read set .empty => read set next
  | read set rest => read set (.seq rest next)

/-- What is left to match after reading a character. -/
def after? (c : Char) : Move → Option Pattern
  | complete => none
  | read set rest => if set.contains c then some rest else none

end Move

namespace Pattern

/-- One repetition at least. -/
def atLeastOne (greedy : Bool) (p : Pattern) : Pattern := seq p (many greedy p)

/-- One repetition at most. -/
def optional (greedy : Bool) (p : Pattern) : Pattern :=
  if greedy then either p empty else either empty p

/-- The ways to go on between two neighbours, the preferred ones first. A repetition that
reads nothing is not repeated. -/
def moves (before after : Option Char) : Pattern → List Move
  | empty => [.complete]
  | char set => [.read set empty]
  | anchor a => if a.holds before after then [.complete] else []
  | seq p q =>
    (p.moves before after).flatMap fun
      | .complete => q.moves before after
      | move => [move.followedBy q]
  | either p q => (p.moves before after ++ q.moves before after).eraseDups
  | many greedy p =>
    let again := (p.moves before after).map (Move.followedBy (many greedy p))
    (if greedy then again ++ [.complete] else .complete :: again).eraseDups

/-- Is a match complete at the end of the text, if these patterns are left to match here? -/
def reachesEnd (before : Option Char) (left : List Pattern) : List Char → Bool
  | [] => (left.flatMap (moves before none)).contains .complete
  | c :: cs =>
    let live := (left.flatMap (moves before (Option.some c))).takeWhile (· ≠ .complete)
    reachesEnd (Option.some c) (live.filterMap (Move.after? c)).eraseDups cs

/-- Does the match that a search for the pattern finds reach the end of the text? -/
def fits (p : Pattern) (text : String) : Bool :=
  reachesEnd none [seq (many false (char .all)) p] text.toList

/-- Patterns one after the other. -/
def inSequence (ps : List Pattern) : Pattern := ps.foldr seq empty

/-- The first of some patterns, or else one of the others. -/
def oneOf (first : Pattern) : List Pattern → Pattern
  | [] => first
  | p :: ps => either first (oneOf p ps)

end Pattern

end LetLang.Text
