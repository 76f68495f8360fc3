import TableProbe.Pattern.Plain
import TableProbe.Pattern.Spelling
import TableProbe.Pattern.WordTree

/-!
# The room that a pattern takes

A pattern is searched for by two automata, one that reads forwards and marks
groups, and one that reads backwards and does not.  A pattern with an automaton
that would be too large is refused.  The room of an automaton is counted in
bytes: each state takes room, and so does each branch of a state that branches
and each range of bytes of a state that looks at a byte, unless it looks for
one range only.
-/

namespace TableProbe

/-- The direction in which an automaton reads. -/
inductive Direction
  | forwards
  | backwards
  deriving DecidableEq, Repr

namespace Pattern

/-- The room of a state. -/
def stateRoom : Nat := 32

/-- The room of a branch. -/
def branchRoom : Nat := 4

/-- The room of a range of bytes. -/
def rangeRoom : Nat := 8

/-! ## Characters and words -/

/-- The room of the states for one character of a set.  Read forwards, the
states from which the same can follow are one; read backwards, those are to
which the same leads. -/
def setRoom (d : Direction) (set : CharSet) : Nat :=
  if set.isAscii then 2 * stateRoom + rangeRoom * set.ranges.length
  else
    let spellings := Spelling.ofSet set
    match d with
    | .forwards =>
      let states := (Spelling.remainders 4 spellings).eraseDups
      stateRoom + (states.map fun s => stateRoom + rangeRoom * (Spelling.branches s).length).sum
    | .backwards =>
      let states := (spellings.flatMap Spelling.beginnings).eraseDups
      2 * stateRoom + branchRoom * spellings.length + stateRoom * states.length

/-- The room of the state for the words of a chunk. -/
def chunkRoom (heads : Nat) : Nat := stateRoom + if heads = 1 then 0 else rangeRoom * heads

/-- The room of the states at a place in the tree of some words of up to `n`
bytes, and after it.  Where only one word is left, it has two states for each
byte. -/
def wordsRoom : Nat → Words → Nat
  | 0, _ => 0
  | _ + 1, [w] => w.length * (2 * stateRoom + branchRoom)
  | n + 1, ws =>
    if ws.isLeaf then 0
    else
      let chunks := ws.chunks.filter fun chunk => !chunk.isEmpty
      let rooms := chunks.map fun chunk =>
        let heads := chunk.heads
        chunkRoom heads.length + (heads.map fun b => wordsRoom n (chunk.after b)).sum
      stateRoom + branchRoom * (chunks.length + ws.endings) + rooms.sum

/-- The words that a choice is between, if all of its alternatives are texts.
They are read in a direction. -/
def words? (d : Direction) : Pattern → Option Words
  | alt p q =>
    (alt p q).choices.mapM fun
      | text chars =>
        let word := chars.flatMap String.utf8EncodeChar
        some (if d = .forwards then word else word.reverse)
      | _ => none
  | _ => none

/-! ## Parts of automata -/

/-- What a part of a pattern adds to an automaton. -/
structure Part where
  room : Nat
  /-- Whether its last state branches, so that going on from it takes another
  branch. -/
  forks : Bool
  /-- The room of its alternatives in a choice. -/
  branches : Nat

namespace Part

/-- The room for going on after a part. -/
def link (room : Nat) (forks : Bool) : Nat := room + if forks then branchRoom else 0

/-- A part that is one alternative in a choice. -/
def single (room : Nat) (forks : Bool) : Part := ⟨room, forks, link room forks + branchRoom⟩

/-- The room of a part and of going on after it. -/
def linked (a : Part) : Nat := link a.room a.forks

/-- One part after the other. -/
def append (a b : Part) : Part := single (a.linked + b.room) b.forks

/-- The part for so many pieces one after the other. -/
def repeated (a : Part) (advances : Bool) : Count → Part
  | ⟨0, some 1, _⟩ => single (a.linked + 2 * stateRoom + 2 * branchRoom) false
  | ⟨0, none, _⟩ =>
    if advances then single (a.linked + stateRoom + branchRoom) true
    else single (a.linked + 3 * stateRoom + 4 * branchRoom) false
  | ⟨least, none, _⟩ => single (least * a.linked + stateRoom + branchRoom) true
  | ⟨least, some most, _⟩ =>
    if least = most then single ((most - 1) * a.linked + a.room) a.forks
    else
      let needed := if least = 0 then stateRoom else least * a.linked
      let more := a.linked + stateRoom + 2 * branchRoom
      single (needed + stateRoom + (most - least) * more) false

end Part

/-- What a pattern adds to an automaton, given what it adds if words have no
tree of their own. -/
def withTree (d : Direction) (p : Pattern) (a : Part) : Part :=
  match words? d p with
  | some ws => .single (stateRoom + wordsRoom ((ws.map List.length).foldl max 0) ws) false
  | none => a

/-- What a pattern adds to an automaton if the alternatives of a choice are
kept apart. -/
def part (d : Direction) : Pattern → Part
  | empty | anchor _ => .single stateRoom false
  | text chars => .single (stateRoom * (chars.map Char.utf8Size).sum) false
  | char set => .single (setRoom d set) false
  | group p =>
    match d with
    | .forwards => .single ((withTree d p (p.part d)).linked + 2 * stateRoom) false
    | .backwards =>
      let a := withTree d p (p.part d)
      .single a.room a.forks
  | seq p q =>
    let a := withTree d p (p.part d)
    let b := withTree d q (q.part d)
    match d with
    | .forwards => a.append b
    | .backwards => b.append a
  | alt p q =>
    let branches := (p.part d).branches + (q.part d).branches
    ⟨2 * stateRoom + branches, false, branches⟩
  | times p count => (withTree d p (p.part d)).repeated (p.leastLength.any (0 < ·)) count

/-! ## Automata -/

/-- The room of the states that pass what is before a piece; none is passed if
all pieces begin where the automaton does. -/
def entryRoom (anchored : Bool) : Nat :=
  if anchored then stateRoom else 3 * stateRoom + rangeRoom + 2 * branchRoom

/-- The room of an automaton. -/
def room (d : Direction) (p : Pattern) : Nat :=
  (withTree d p (p.part d)).linked + stateRoom +
    match d with
    | .forwards => entryRoom (p.startsAt .textStart) + 2 * stateRoom
    | .backwards => entryRoom (p.endsAt .textEnd)

/-- The largest room that an automaton may take. -/
def maxRoom : Nat := 10 * 2 ^ 20

/-- Whether an automaton takes more room than there is. -/
def isTooLarge (d : Direction) (p : Pattern) : Bool := maxRoom < p.room d

end Pattern

end TableProbe
