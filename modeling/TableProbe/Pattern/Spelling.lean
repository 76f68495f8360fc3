import TableProbe.Pattern.CharSet
import TableProbe.Power

/-!
# Spellings of characters

A character is spelled with one to four bytes.  The spellings of a range of
characters are given as sequences of ranges of bytes: each of them stands for
all sequences of bytes out of its ranges.
-/

namespace TableProbe

/-- A sequence of ranges of bytes, both ends included. -/
abbrev Spelling := List (UInt8 × UInt8)

namespace Spelling

/-- The ranges of characters that are spelled with the same number of bytes, in
rising order. -/
def lengthRanges : List (Nat × Nat) :=
  [(0, 0x7f), (0x80, 0x7ff), (0x800, 0xd7ff), (0xe000, 0xffff), (0x10000, CharSet.lastPoint)]

/-- The part that two ranges have in common. -/
def common? (r s : Nat × Nat) : Option (Nat × Nat) :=
  let first := max r.1 s.1
  let last := min r.2 s.2
  if first ≤ last then some (first, last) else none

/-- Divides a range into the part before the first whole block of a size, the
whole blocks, and the part after them.  A range within a block is left as it
is. -/
def cutAtBlocks (size : Nat) (r : Nat × Nat) : List (Nat × Nat) :=
  if r.1 / size = r.2 / size then [r]
  else
    let first := (r.1 + size - 1) / size * size
    let last := (r.2 + 1) / size * size
    (if r.1 < first then [(r.1, first - 1)] else []) ++
      (if first < last then [(first, last - 1)] else []) ++
      (if last ≤ r.2 then [(last, r.2)] else [])

/-- Divides a range of characters into ranges that have one spelling each.  All
bytes but the first one count 64 values. -/
def pieces (r : Nat × Nat) : List (Nat × Nat) :=
  if r.2 < 0x80 then [r]
  else [64, 64 ^ 2, 64 ^ 3].foldl (fun rs size => rs.flatMap (cutAtBlocks size)) [r]

/-- The bytes of a character. -/
def bytes (n : Nat) : List UInt8 := String.utf8EncodeChar (Char.ofNat n)

/-- The spellings of a range of characters, in rising order. -/
def ofRange (r : Nat × Nat) : List Spelling :=
  ((lengthRanges.filterMap (common? r)).flatMap pieces).map fun p => (bytes p.1).zip (bytes p.2)

/-- The spellings of the characters of a set, in rising order. -/
def ofSet (s : CharSet) : List Spelling := s.ranges.flatMap ofRange

/-- What can follow each range of bytes that the spellings begin with. -/
def branches (spellings : List Spelling) : List (List Spelling) :=
  (spellings.splitBy fun s t => s.head? == t.head?).map fun group => group.map List.tail

/-- All that can be left of some spellings once up to `n` ranges were read, as
long as something is left. -/
def remainders : Nat → List Spelling → List (List Spelling)
  | 0, _ => []
  | n + 1, spellings =>
    if spellings.all List.isEmpty then []
    else spellings :: (branches spellings).flatMap (remainders n)

/-- The beginnings of a spelling, without the empty one. -/
def beginnings (s : Spelling) : List Spelling := (List.range s.length).map fun i => s.take (i + 1)

end Spelling

end TableProbe
