import TableProbe.Pattern.Bracket
import TableProbe.Pattern.Group

/-!
# Reading patterns

The parts of a pattern follow one another; bars separate the alternatives of a
group.  What is begun of the groups that are still open is kept on a stack, the
innermost group first.
-/

namespace TableProbe

/-- What was read of a group so far. -/
structure Branches where
  /-- Where the first alternative begins. -/
  first : Nat
  /-- The finished alternatives, the last one first. -/
  finished : List Tree
  /-- Where the alternative begins that is being read. -/
  start : Nat
  /-- The parts of this alternative, the last one first. -/
  parts : List Tree

namespace Branches

/-- A group of which nothing was read. -/
def startAt (place : Nat) : Branches := ⟨place, [], place, []⟩

/-- Adds a part. -/
def push (b : Branches) (t : Tree) : Branches := { b with parts := t :: b.parts }

/-- The alternative that is being read, if it ends here. -/
def current (b : Branches) (stop : Nat) : Tree := .ofParts ⟨b.start, stop⟩ b.parts.reverse

/-- Begins another alternative after a bar. -/
def next (b : Branches) (stop start : Nat) : Branches :=
  { b with finished := b.current stop :: b.finished, start, parts := [] }

/-- All alternatives, if the group ends here. -/
def toTree (b : Branches) (stop : Nat) : Tree :=
  if b.finished.isEmpty then b.current stop
  else .choice ⟨b.first, stop⟩ (b.current stop :: b.finished).reverse

end Branches

/-- A group that is still open. -/
structure OpenGroup where
  /-- What was read of the group around it. -/
  outer : Branches
  /-- The parenthesis that opens it. -/
  span : Span
  changes : Option FlagChanges
  /-- Whether the text around it is loose. -/
  loose : Bool

/-- What was read of a pattern. -/
structure Progress where
  branches : Branches
  groups : List OpenGroup
  names : GroupNames

/-- Whether a text is loose after some flag changes; at most one of them
concerns it. -/
def looseAfter (changes : FlagChanges) (loose : Bool) : Bool :=
  ((changes.find? fun change => change.1 = .loose).map Prod.snd).getD loose

namespace Reader

/-- The part that a count after it refers to, and the branches without it. -/
def toRepeat (b : Branches) : Reader (Tree × Branches) := do
  let here ← place
  match b.parts with
  | [] | .empty _ :: _ | .flags .. :: _ => fail .nothingToRepeat here here
  | t :: parts => return (t, { b with parts })

/-- Passes the sign that prefers few pieces, if it comes next; tells whether it
does. -/
def fewestSign : Reader Bool := accept "?"

/-- Adds the repetition of a part that ends here. -/
def pushTimes (b : Branches) (t : Tree) (count : Count) : Reader Branches := do
  return b.push (.times ⟨t.span.first, ← place⟩ t count)

/-- Reads the sign of a repetition. -/
def repetition (b : Branches) (least : Nat) (most : Option Nat) : Reader Branches := do
  let (t, b) ← toRepeat b
  drop 1
  let fewest ← fewestSign
  pushTimes b t { least, most, fewest }

/-- Reads the numbers of a counted repetition, after the brace. -/
def countRange (start : Nat) : Reader (Nat × Option Nat) := do
  let least ← decimal
  match ← rest with
  | [] => fail .openCount start (← place)
  | ',' :: _ =>
    unless ← advance do fail .openCount start (← place)
    if (← rest).head? = some '}' then return (← liftExcept least, none)
    else
      let least ← liftExcept least
      let most ← liftExcept (← decimal)
      return (least, some most)
  | _ =>
    let count ← liftExcept least
    return (count, some count)
where
  /-- A result, or the defect that it is. -/
  liftExcept {α : Type} (r : Except Defect α) : Reader α := StateT.lift r

/-- Reads a counted repetition, from the brace on. -/
def counted (b : Branches) : Reader Branches := do
  let start ← place
  let (t, b) ← toRepeat b
  unless ← advance do fail .openCount start (← place)
  let (least, most) ← countRange start
  unless (← rest).head? = some '}' do fail .openCount start (← place)
  let _ ← advance
  let fewest ← fewestSign
  if most.any (· < least) then fail .badCountRange start (← place)
  pushTimes b t { least, most, fewest }

/-- Reads an opening parenthesis. -/
def openGroup (p : Progress) : Reader Progress := do
  let start ← place
  let loose := (← get).loose
  let (opened, names) ← opening p.names
  let span : Span := ⟨start, start + 1⟩
  match opened with
  | .flags changes =>
    modify fun c => { c with loose := looseAfter changes loose }
    return { p with branches := p.branches.push (.flags ⟨start, ← place⟩ changes), names }
  | .group changes =>
    modify fun c => { c with loose := looseAfter (changes.getD []) loose }
    return { branches := .startAt (← place)
             groups := ⟨p.branches, span, changes, loose⟩ :: p.groups
             names }

/-- Reads a closing parenthesis. -/
def closeGroup (p : Progress) : Reader Progress := do
  match p.groups with
  | [] => failHere .unopenedGroup
  | g :: groups =>
    let inner := p.branches.toTree (← place)
    modify fun c => { c with loose := g.loose }
    drop 1
    let group := Tree.group ⟨g.span.first, ← place⟩ g.changes inner
    return { p with branches := g.outer.push group, groups }

/-- Reads the next part of a pattern, given its first character. -/
def part (p : Progress) (c : Char) : Reader Progress := do
  let here ← place
  let span : Span := ⟨here, here + 1⟩
  let push (t : Tree) : Progress := { p with branches := p.branches.push t }
  match c with
  | '(' => openGroup p
  | ')' => closeGroup p
  | '|' =>
    drop 1
    return { p with branches := p.branches.next here (here + 1) }
  | '[' => return push (← bracket)
  | '?' => return { p with branches := ← repetition p.branches 0 (some 1) }
  | '*' => return { p with branches := ← repetition p.branches 0 none }
  | '+' => return { p with branches := ← repetition p.branches 1 none }
  | '{' => return { p with branches := ← counted p.branches }
  | '\\' => return push (.atom (← escape))
  | _ =>
    drop 1
    return push <| .atom <| match c with
      | '.' => .dot span
      | '^' => .start span
      | '$' => .stop span
      | _ => .letter ⟨span, c, false⟩

/-- Reads the parts of a pattern, at most `n` of them. -/
def parts : Nat → Progress → Reader Progress
  | 0, p => return p
  | n + 1, p => do
    dropGap
    match ← rest with
    | [] => return p
    | c :: _ => parts n (← part p c)

/-- Reads a whole pattern.  Each part takes a character, so there are no more
parts than characters. -/
def pattern : Reader Tree := do
  let p ← parts ((← left) + 1) ⟨.startAt 0, [], []⟩
  match p.groups with
  | g :: _ => fail .openGroup g.span.first g.span.last
  | [] => return p.branches.toTree (← place)

end Reader

/-- How deep the parts of a pattern may be put into each other. -/
def Tree.maxDepth : Nat := 250

/-- Reads a pattern. -/
def Tree.ofText (text : String) : Except Defect Tree := do
  let chars := text.toList
  let start : Cursor := { place := 0, size := chars.length, rest := chars, loose := false }
  let (tree, _) ← Reader.pattern.run start
  match tree.tooDeep Tree.maxDepth with
  | some span => throw ⟨.nesting Tree.maxDepth, span, none⟩
  | none => return tree

end TableProbe
