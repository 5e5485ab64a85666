/-! Sets of characters, built from ranges by the operations on sets. -/
namespace LetLang.Text

/-- A set of characters. -/
inductive CharSet where
  | empty
  | range (first last : Char)
  | union (a b : CharSet)
  | inter (a b : CharSet)
  | diff (a b : CharSet)
  | symmDiff (a b : CharSet)
  | compl (a : CharSet)
  /-- The set without regard to capitals and small letters of ASCII. -/
  | anyCase (a : CharSet)
  deriving DecidableEq

namespace CharSet

/-- Is a character in the set? -/
def contains : CharSet → Char → Bool
  | empty, _ => false
  | range first last, c => first ≤ c && c ≤ last
  | union a b, c => a.contains c || b.contains c
  | inter a b, c => a.contains c && b.contains c
  | diff a b, c => a.contains c && !b.contains c
  | symmDiff a b, c => a.contains c != b.contains c
  | compl a, c => !a.contains c
  | anyCase a, c => a.contains c.toLower || a.contains c.toUpper

/-- All characters. -/
def all : CharSet := compl empty

/-- One character alone. -/
def single (c : Char) : CharSet := range c c

/-- The characters of any of some ranges. -/
def ofRanges (ranges : List (Char × Char)) : CharSet :=
  ranges.foldr (fun r set => union (range r.1 r.2) set) empty

/-- The characters of any of some others. -/
def ofList (cs : List Char) : CharSet := ofRanges (cs.map fun c => (c, c))

/-- Sets of ASCII characters that have a name. -/
def named : List (String × CharSet) :=
  [("alnum", ofRanges [('0', '9'), ('A', 'Z'), ('a', 'z')]),
    ("alpha", ofRanges [('A', 'Z'), ('a', 'z')]),
    ("ascii", range '\x00' '\x7f'),
    ("blank", ofList ['\t', ' ']),
    ("cntrl", ofRanges [('\x00', '\x1f'), ('\x7f', '\x7f')]),
    ("digit", range '0' '9'),
    ("graph", range '!' '~'),
    ("lower", range 'a' 'z'),
    ("print", range ' ' '~'),
    ("punct", ofRanges [('!', '/'), (':', '@'), ('[', '\x60'), ('\x7b', '~')]),
    ("space", ofRanges [('\t', '\r'), (' ', ' ')]),
    ("upper", range 'A' 'Z'),
    ("word", ofRanges [('0', '9'), ('A', 'Z'), ('a', 'z'), ('_', '_')]),
    ("xdigit", ofRanges [('0', '9'), ('A', 'F'), ('a', 'f')])]

end CharSet

end LetLang.Text
