import TableProbe.Pattern.Plain

/-!
# Searching a text for a pattern

A text of `n` characters has `n + 1` places.  A set of places is a number whose
binary digit `i` tells whether place `i` is in the set.  A pattern leads from a
set of places to the set of the places where a piece that begins at one of them
can end, and a text contains the pattern if there is such an end at all.  A
piece need not be repeated more often than there are places: a longer
repetition stands still somewhere, and can be cut short there.
-/

namespace TableProbe

namespace Anchor

/-- Whether a character belongs to words. -/
def isWordChar (c : Char) : Bool := c.isAlphanum || c = '_'

/-- Whether an anchor holds between two characters, either of which is missing
at an end of the text.  Words of more than ASCII characters are not known, so
anchors that ask for them hold nowhere. -/
def holds (a : Anchor) (before after : Option Char) : Bool :=
  match a with
  | textStart => before.isNone
  | textEnd => after.isNone
  | lineStart returns =>
    before.isNone || before = some '\n' ||
      (returns && before = some '\r' && after ≠ some '\n')
  | lineEnd false => after.isNone || after = some '\n'
  | lineEnd true =>
    after.isNone || after = some '\r' || (after = some '\n' && before ≠ some '\r')
  | word _ false => false
  | word place true =>
    let wordBefore := before.any isWordChar
    let wordAfter := after.any isWordChar
    match place with
    | .edge => wordBefore != wordAfter
    | .offEdge => wordBefore == wordAfter
    | .first => !wordBefore && wordAfter
    | .last => wordBefore && !wordAfter
    | .notAfter => !wordBefore
    | .notBefore => !wordAfter

end Anchor

namespace Pattern

/-- The set of the places at which a list of truth values is true. -/
def placesOf (truths : List Bool) : Nat := truths.foldr (fun b n => 2 * n + b.toNat) 0

/-- The places before characters of a set. -/
def placesOfChars (s : List Char) (set : CharSet) : Nat := placesOf (s.map set.contains)

/-- The places at which an anchor holds. -/
def placesOfAnchor (s : List Char) (a : Anchor) : Nat :=
  placesOf ((none :: s.map some).zipWith a.holds (s.map some ++ [none]))

/-- The places after characters of a set that begin at one of the given places. -/
def pass (s : List Char) (set : CharSet) (places : Nat) : Nat :=
  2 * (places &&& placesOfChars s set)

/-- The places after a text that begins at one of the given places. -/
def passAll (s : List Char) : List Char → Nat → Nat
  | [], places => places
  | c :: rest, places => if places = 0 then 0 else passAll s rest (pass s (.ofChar c) places)

/-- Does `n` steps from a set of places.  Where a step changes nothing, no
later one does. -/
def iterate (step : Nat → Nat) : Nat → Nat → Nat
  | 0, places => places
  | n + 1, places =>
    let next := step places
    if next = places then places else iterate step n next

/-- Does up to `n` steps from a set of places, and collects all places that are
reached. -/
def collect (step : Nat → Nat) : Nat → Nat → Nat
  | 0, places => places
  | n + 1, places =>
    let next := places ||| step places
    if next = places then places else collect step n next

/-- The places where a piece can end that begins at one of the given places. -/
def ends (s : List Char) : Pattern → Nat → Nat
  | empty, places => places
  | text chars, places => passAll s chars places
  | char set, places => pass s set places
  | anchor a, places => places &&& placesOfAnchor s a
  | group p, places => p.ends s places
  | seq p q, places => q.ends s (p.ends s places)
  | alt p q, places => p.ends s places ||| q.ends s places
  | times p count, places =>
    let enough := s.length + 1
    let more := match count.most with
      | some most => min (most - count.least) enough
      | none => enough
    collect (p.ends s) more (iterate (p.ends s) (min count.least enough) places)

/-- Whether a text has a piece that the pattern describes. -/
def occursIn (p : Pattern) (text : String) : Bool :=
  p.ends text.toList (2 ^ (text.toList.length + 1) - 1) ≠ 0

end Pattern

end TableProbe
