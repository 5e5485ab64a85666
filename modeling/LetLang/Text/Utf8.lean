/-! Characters from bytes.

The first byte of a character fixes how many bytes follow and which values they may have.
Where the bytes go wrong, the longest beginning of a character that they contain is dropped
and reading goes on behind it. A lenient reader puts U+FFFD in place of every such piece; a
strict reader has no answer then. -/
namespace LetLang.Text.Utf8

/-- The values that a byte may have. -/
structure Bounds where
  low : UInt8
  high : UInt8

/-- What a byte within a character may be, unless its first byte says otherwise. -/
def Bounds.tail : Bounds := ⟨0x80, 0xbf⟩

/-- What a first byte contributes to the number of its character, and the bounds of the
bytes that follow. The narrower bounds rule out overlong forms, surrogates and numbers above
U+10FFFF. -/
def lead? (b : UInt8) : Option (Nat × List Bounds) :=
  if b < 0x80 then some (b.toNat, [])
  else if b < 0xc2 then none
  else if b < 0xe0 then some (b.toNat % 32, [.tail])
  else if b = 0xe0 then some (0, [⟨0xa0, 0xbf⟩, .tail])
  else if b = 0xed then some (13, [⟨0x80, 0x9f⟩, .tail])
  else if b < 0xf0 then some (b.toNat % 16, [.tail, .tail])
  else if b = 0xf0 then some (0, [⟨0x90, 0xbf⟩, .tail, .tail])
  else if b < 0xf4 then some (b.toNat % 8, [.tail, .tail, .tail])
  else if b = 0xf4 then some (4, [⟨0x80, 0x8f⟩, .tail, .tail])
  else none

/-- Reads the bytes that must follow, as long as they are within bounds. -/
def follow (number : Nat) : List Bounds → List UInt8 → Option Char × List UInt8
  | [], bs => (some (Char.ofNat number), bs)
  | _ :: _, [] => (none, [])
  | r :: rs, b :: bs =>
    if r.low ≤ b ∧ b ≤ r.high then follow (number * 64 + b.toNat % 64) rs bs
    else (none, b :: bs)

/-- The character at the front of `b :: bs`, or none, and the bytes behind it. -/
def first (b : UInt8) (bs : List UInt8) : Option Char × List UInt8 :=
  match lead? b with
  | none => (none, bs)
  | some (number, bounds) => follow number bounds bs

theorem length_follow_rest (number : Nat) (rs : List Bounds) (bs : List UInt8) :
    (follow number rs bs).2.length ≤ bs.length := by
  fun_induction follow number rs bs with
  | case1 => exact Nat.le_refl _
  | case2 => exact Nat.le_refl _
  | case3 number r rs b bs h ih => exact Nat.le_succ_of_le ih
  | case4 => exact Nat.le_refl _

theorem length_first_rest (b : UInt8) (bs : List UInt8) :
    (first b bs).2.length ≤ bs.length := by
  unfold first
  split
  · exact Nat.le_refl _
  · exact length_follow_rest ..

/-- The characters that bytes stand for, with none for each piece that stands for nothing. -/
def decode : List UInt8 → List (Option Char)
  | [] => []
  | b :: bs => (first b bs).1 :: decode (first b bs).2
termination_by bs => bs.length
decreasing_by exact Nat.lt_succ_of_le (length_first_rest b bs)

/-- The text that bytes stand for, with U+FFFD for each piece that stands for nothing. -/
def decodeLossy (bs : List UInt8) : String :=
  String.ofList ((decode bs).map fun c => c.getD '\uFFFD')

/-- The text that bytes stand for, if they all do. -/
def decode? (bs : List UInt8) : Option String :=
  ((decode bs).mapM fun c => c).map String.ofList

end LetLang.Text.Utf8
