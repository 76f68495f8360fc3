/-!
# Sets of characters

A set of characters is kept as ranges of code points, in rising order and with
gaps between them.
-/

namespace TableProbe

/-- A set of characters: ranges of code points, both ends included. -/
structure CharSet where
  ranges : List (Nat × Nat)
  deriving DecidableEq, Repr

namespace CharSet

/-- The last code point. -/
def lastPoint : Nat := 0x10ffff

/-- Whether a character is in a set. -/
def contains (s : CharSet) (c : Char) : Bool :=
  s.ranges.any fun (first, last) => first ≤ c.toNat && c.toNat ≤ last

/-- Whether nothing is in a set. -/
def isEmpty (s : CharSet) : Bool := s.ranges.isEmpty

/-- Whether all characters of a set are ASCII. -/
def isAscii (s : CharSet) : Bool := s.ranges.all fun (_, last) => last < 128

/-- Adds a range, joined with the ranges that it overlaps or touches. -/
def addRange (r : Nat × Nat) : List (Nat × Nat) → List (Nat × Nat)
  | [] => [r]
  | s :: rest =>
    if r.2 + 1 < s.1 then r :: s :: rest
    else if s.2 + 1 < r.1 then s :: addRange r rest
    else addRange (min r.1 s.1, max r.2 s.2) rest

/-- The code point after one; there are no characters from 0xd800 to 0xdfff. -/
def after (n : Nat) : Nat := if n = 0xd7ff then 0xe000 else n + 1

/-- The code point before one. -/
def prior (n : Nat) : Nat := if n = 0xe000 then 0xd7ff else n - 1

/-- The ranges between the given ones, from a code point on. -/
def gaps (next : Nat) : List (Nat × Nat) → List (Nat × Nat)
  | [] => if next ≤ lastPoint then [(next, lastPoint)] else []
  | (first, last) :: rest =>
    if next < first then (next, prior first) :: gaps (after last) rest else gaps (after last) rest

/-- The set of the characters in some ranges. -/
def ofRanges (ranges : List (Nat × Nat)) : CharSet := ⟨ranges.foldr addRange []⟩

/-- The set of one character. -/
def ofChar (c : Char) : CharSet := ⟨[(c.toNat, c.toNat)]⟩

/-- The set without characters. -/
def empty : CharSet := ⟨[]⟩

/-- The characters of one set or the other. -/
def union (s t : CharSet) : CharSet := ⟨s.ranges.foldr addRange t.ranges⟩

/-- The characters that are not in a set. -/
def complement (s : CharSet) : CharSet := ⟨gaps 0 s.ranges⟩

/-- The characters of both sets. -/
def inter (s t : CharSet) : CharSet := (s.complement.union t.complement).complement

/-- The characters of the first set that are not in the second one. -/
def diff (s t : CharSet) : CharSet := s.inter t.complement

/-- The characters of exactly one of two sets. -/
def symmDiff (s t : CharSet) : CharSet := (s.diff t).union (t.diff s)

/-- The code points that a range has in common with the 26 from `first` on,
moved to start at `moved`. -/
def shifted (first moved : Nat) (r : Nat × Nat) : List (Nat × Nat) :=
  let low := max r.1 first
  let high := min r.2 (first + 25)
  if low ≤ high then [(low - first + moved, high - first + moved)] else []

/-- A set together with the ASCII letters that differ from one of its letters
in case only. -/
def foldCase (s : CharSet) : CharSet :=
  let other := s.ranges.flatMap fun r => shifted 65 97 r ++ shifted 97 65 r
  (ofRanges other).union s

end CharSet

end TableProbe
