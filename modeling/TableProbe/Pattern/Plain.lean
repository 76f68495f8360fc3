import TableProbe.Pattern.Basic
import TableProbe.Power

/-!
# Plain patterns

Patterns are built in a plain form.  Texts that follow one another are one
text, and sequences and choices have no sequences and choices as parts of their
own.  A choice between characters is a set of characters, and parts that all
alternatives begin with stand before the choice.
-/

namespace TableProbe.Pattern

/-- A character of a set.  If the set has one character only, it is a text. -/
def ofSet (set : CharSet) : Pattern :=
  match set.ranges with
  | [(first, last)] => if first = last then text [Char.ofNat first] else char set
  | _ => char set

/-- A repeated pattern.  Empty pieces need not be repeated, and no repetitions
leave the empty text. -/
def repeated (p : Pattern) (count : Count) : Pattern :=
  let count := if p.isBlank then
      { count with least := min count.least 1, most := some (min (count.most.getD 1) 1) }
    else count
  if count.most = some 0 then empty
  else if count.least = 1 ∧ count.most = some 1 then p
  else times p count

/-! ## Sequences -/

/-- The patterns that a pattern is a sequence of. -/
def parts : Pattern → List Pattern
  | empty => []
  | seq p q => p.parts ++ q.parts
  | p => [p]

/-- Puts a pattern before a sequence of others. -/
def before (p : Pattern) (rest : List Pattern) : List Pattern :=
  match p, rest with
  | text a, text b :: rest => text (a ++ b) :: rest
  | p, rest => p :: rest

/-- The sequence of some patterns. -/
def ofParts : List Pattern → Pattern
  | [] => empty
  | [p] => p
  | p :: rest => seq p (ofParts rest)

/-- Patterns one after the other. -/
def ofSequence (ps : List Pattern) : Pattern := ofParts ((ps.flatMap parts).foldr before [])

/-! ## Choices -/

/-- The alternatives of a pattern. -/
def choices : Pattern → List Pattern
  | alt p q => p.choices ++ q.choices
  | p => [p]

/-- The choice between some patterns. -/
def ofChoices : List Pattern → Pattern
  | [] => char CharSet.empty
  | [p] => p
  | p :: rest => alt p (ofChoices rest)

/-- The character of a text of one character. -/
def char? : Pattern → Option CharSet
  | text [c] => some (.ofChar c)
  | _ => none

/-- The characters that a set describes. -/
def set? : Pattern → Option CharSet
  | char set => some set
  | _ => none

/-- The union of the sets that patterns stand for, if all of them do. -/
def setOfAll? (set? : Pattern → Option CharSet) (ps : List Pattern) : Option CharSet :=
  (ps.mapM set?).map fun sets => sets.foldr .union .empty

/-- Whether two patterns are written alike.  Those that mark pieces never are,
since every mark is one of its own. -/
def isLike (p q : Pattern) : Bool := !p.marks && p = q

/-- The number of parts at the front that two sequences have in common. -/
def commonParts (ps qs : List Pattern) : Nat :=
  ((ps.zip qs).takeWhile fun (p, q) => p.isLike q).length

/-- The number of parts that all of some alternatives begin with.  An
alternative that is no sequence has none. -/
def sharedParts : List (List Pattern) → Nat
  | [] => 0
  | first :: rest =>
    if (first :: rest).any fun ps => ps.length < 2 then 0
    else (rest.map (commonParts first)).foldl min first.length

/-- The number of parts that a pattern has, the parts of its parts included. -/
def size : Pattern → Nat
  | empty | text _ | char _ | anchor _ => 1
  | group p => p.size + 1
  | seq p q => p.size + q.size
  | alt p q => p.size + q.size
  | times p _ => p.size + 1

/-- A choice of alternatives that are no choices themselves.  What all of them
begin with is taken out, and what is left of them may have parts in common
again; parts are taken out at most `n` times. -/
def ofAlternatives (n : Nat) (ps : List Pattern) : Pattern :=
  match (setOfAll? char? ps).or (setOfAll? set? ps), sharedParts (ps.map parts), n with
  | some set, _, _ => ofSet set
  | none, shared + 1, n + 1 =>
    let rest := ps.map fun p => ofSequence (p.parts.drop (shared + 1))
    let front := ps.head?.map fun p => p.parts.take (shared + 1)
    ofSequence (front.getD [] ++ [ofAlternatives n (rest.flatMap choices)])
  | none, _, _ => ofChoices ps
termination_by n

/-- A choice of patterns. -/
def ofChoice (ps : List Pattern) : Pattern :=
  match ps.flatMap choices with
  | [] => char CharSet.empty
  | [p] => p
  | ps => ofAlternatives (ps.map size).sum ps

end TableProbe.Pattern
