import TableProbe.Pattern.CharSet

/-!
# Patterns

A pattern is a regular expression: it describes pieces of text, and is used to
find out whether a text has such a piece.  What a pattern describes depends on
the characters around the piece only through its anchors, which describe empty
pieces at certain places.
-/

namespace TableProbe

/-- How a place lies to the words around it. -/
inductive WordPlace
  /-- At either end of a word. -/
  | edge
  /-- At neither end of a word. -/
  | offEdge
  /-- Before the first character of a word. -/
  | first
  /-- After the last character of a word. -/
  | last
  /-- Not after a character of a word. -/
  | notAfter
  /-- Not before a character of a word. -/
  | notBefore
  deriving DecidableEq, Repr

/-- What is asked of a place in a text. -/
inductive Anchor
  | textStart
  | textEnd
  /-- The start of a line; lines may end with carriage returns too. -/
  | lineStart (returns : Bool)
  /-- The end of a line; lines may end with carriage returns too. -/
  | lineEnd (returns : Bool)
  /-- Words consist of ASCII letters, digits and underscores, or of the like
  among all characters. -/
  | word (place : WordPlace) (ascii : Bool)
  deriving DecidableEq, Repr

/-- How many pieces a repetition takes; without a last number, there may be any
number more. -/
structure Count where
  least : Nat
  most : Option Nat
  /-- Whether few pieces are preferred to many.  The same pieces are described
  either way. -/
  fewest : Bool
  deriving DecidableEq, Repr

/-- A regular expression. -/
inductive Pattern
  /-- The empty text. -/
  | empty
  /-- A text. -/
  | text (chars : List Char)
  /-- A text of one character. -/
  | char (set : CharSet)
  /-- The empty text at certain places. -/
  | anchor (a : Anchor)
  /-- What the inner pattern describes; the piece is marked. -/
  | group (inner : Pattern)
  /-- One piece after the other. -/
  | seq (p q : Pattern)
  /-- A piece of either kind. -/
  | alt (p q : Pattern)
  /-- So many pieces one after the other. -/
  | times (inner : Pattern) (count : Count)
  deriving DecidableEq, Repr

namespace Pattern

/-- Whether a pattern describes empty pieces only. -/
def isBlank : Pattern → Bool
  | empty => true
  | text chars => chars.isEmpty
  | char _ => false
  | anchor _ => true
  | group p => p.isBlank
  | seq p q => p.isBlank && q.isBlank
  | alt p q => p.isBlank && q.isBlank
  | times p _ => p.isBlank

/-- The length of the shortest piece in characters; there is none if the
pattern has a part that describes nothing. -/
def leastLength : Pattern → Option Nat
  | empty => some 0
  | text chars => some chars.length
  | char set => if set.isEmpty then none else some 1
  | anchor _ => some 0
  | group p => p.leastLength
  | seq p q => return (← p.leastLength) + (← q.leastLength)
  | alt p q => return min (← p.leastLength) (← q.leastLength)
  | times p count => return count.least * (← p.leastLength)

/-- Whether all pieces begin at an anchor. -/
def startsAt (a : Anchor) : Pattern → Bool
  | empty | text _ | char _ => false
  | anchor b => b = a
  | group p => p.startsAt a
  | seq p q => p.startsAt a || (p.isBlank && q.startsAt a)
  | alt p q => p.startsAt a && q.startsAt a
  | times p count => 0 < count.least && p.startsAt a

/-- Whether all pieces end at an anchor. -/
def endsAt (a : Anchor) : Pattern → Bool
  | empty | text _ | char _ => false
  | anchor b => b = a
  | group p => p.endsAt a
  | seq p q => q.endsAt a || (q.isBlank && p.endsAt a)
  | alt p q => p.endsAt a && q.endsAt a
  | times p count => 0 < count.least && p.endsAt a

/-- Whether a pattern marks pieces. -/
def marks : Pattern → Bool
  | empty | text _ | char _ | anchor _ => false
  | group _ => true
  | seq p q => p.marks || q.marks
  | alt p q => p.marks || q.marks
  | times p _ => p.marks

/-- Whether a pattern asks for words of more than ASCII characters. -/
def asksForWords : Pattern → Bool
  | anchor (.word _ ascii) => !ascii
  | empty | text _ | char _ | anchor _ => false
  | group p => p.asksForWords
  | seq p q => p.asksForWords || q.asksForWords
  | alt p q => p.asksForWords || q.asksForWords
  | times p _ => p.asksForWords

end Pattern

end TableProbe
