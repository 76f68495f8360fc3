import TableProbe.Pattern.Escape

/-!
# Written sets of characters

A set in brackets lists characters, ranges, classes and further sets, and can
be combined with other sets.  All ways to combine sets bind alike, from the
left, and less than the list.  Sets can be put into each other; the reader
keeps what is begun on a stack.
-/

namespace TableProbe

/-- The items of a set that were read so far, the last one first. -/
structure ClassItems where
  span : Span
  items : List ClassTree

namespace ClassItems

/-- No items yet. -/
def startAt (place : Nat) : ClassItems := ⟨⟨place, place⟩, []⟩

/-- Adds an item. -/
def push (s : ClassItems) (t : ClassTree) : ClassItems :=
  ⟨⟨if s.items.isEmpty then t.span.first else s.span.first, t.span.last⟩, t :: s.items⟩

/-- The set of all items. -/
def toTree (s : ClassItems) : ClassTree :=
  match s.items with
  | [t] => t
  | ts => .union s.span ts.reverse

end ClassItems

/-- What a set that is being read is part of. -/
inductive ClassFrame
  /-- The items before it in an outer set, and the beginning of the inner one. -/
  | bracket (outer : ClassItems) (span : Span) (negated : Bool)
  /-- The set that it is combined with. -/
  | combine (op : SetOp) (left : ClassTree)

namespace Reader

/-- A character that stands for itself where the reader is. -/
def plain (c : Char) : Reader Letter := do
  let here ← place
  return ⟨⟨here, here + 1⟩, c, false⟩

/-- Reads hyphens at the beginning of a set. -/
def hyphens (start : Nat) : Nat → ClassItems → Reader ClassItems
  | 0, items => return items
  | n + 1, items => do
    if (← rest).head? = some '-' then
      let items := items.push (.letter (← plain '-'))
      unless ← advance do fail .openClass start start
      hyphens start n items
    else return items

/-- Reads the beginning of a set: the bracket, the sign that negates it, and
the hyphens or the closing bracket that stand for themselves there. -/
def openBracket (outer : ClassItems) : Reader (ClassFrame × ClassItems) := do
  let start ← place
  unless ← advance do fail .openClass start (← place)
  let negated := (← rest).head? = some '^'
  if negated then
    unless ← advance do fail .openClass start (← place)
  let items ← hyphens start (← left) (.startAt (← place))
  if items.items.isEmpty ∧ (← rest).head? = some ']' then
    let items := items.push (.letter (← plain ']'))
    unless ← advance do fail .openClass start (← place)
    return (.bracket outer ⟨start, ← place⟩ negated, items)
  return (.bracket outer ⟨start, ← place⟩ negated, items)

/-- Reads a named class between brackets with colons.  Without one, nothing is
read. -/
def namedClass? : Reader (Option ClassTree) := do
  let start ← place
  match ← rest with
  | '[' :: ':' :: tail =>
    let negated := tail.head? = some '^'
    let tail := if negated then tail.drop 1 else tail
    let name := tail.takeWhile (· ≠ ':')
    match NamedClass.ofName? (String.ofList name), tail.drop name.length with
    | some kind, ':' :: ']' :: _ =>
      drop ((if negated then 3 else 2) + name.length + 2)
      return some (.named ⟨start, ← place⟩ kind negated)
    | _, _ => return none
  | _ => return none

/-- Stops because a set is not closed: the innermost one is to blame. -/
def failOpen {α : Type} : List ClassFrame → Reader α
  | .bracket _ span _ :: _ => fail .openClass span.first span.last
  | _ :: frames => failOpen frames
  | [] => failHere .openClass

/-- Reads a character, an escape, or one end of a range. -/
def classAtom : Reader Atom := do
  match ← rest with
  | '\\' :: _ => escape
  | c :: _ =>
    let l ← plain c
    drop 1
    return .letter l
  | [] => failHere .openClass

/-- The set of one atom, if it has one. -/
def classOfAtom : Atom → Reader ClassTree
  | .letter l => return .letter l
  | .shorthand span kind negated => return .shorthand span kind negated
  | .property span name => return .property span name
  | a => fail .badClassEscape a.span.first a.span.last

/-- The character at an end of a range. -/
def rangeEnd : Atom → Reader Letter
  | .letter l => return l
  | a => fail .classRangeEnd a.span.first a.span.last

/-- The first character after a hyphen that is neither a blank nor the sign of
a comment. -/
def seenPast (inComment : Bool) : List Char → Option Char
  | [] => none
  | c :: rest =>
    if Text.isBlank c then seenPast inComment rest
    else if c = '#' ∧ ¬ inComment then seenPast true rest
    else some c

/-- The character after the next one, without looking at blanks if the text is
loose. -/
def second? : Reader (Option Char) := do
  let c ← get
  let tail := c.rest.drop 1
  return if c.loose then (seenPast false tail).or tail.head? else tail.head?

/-- Reads an item of a set: an atom, or two of them with a hyphen between. -/
def classItem (frames : List ClassFrame) : Reader ClassTree := do
  let first ← classAtom
  dropGap
  if ← atEnd then failOpen frames
  let after ← second?
  if (← rest).head? ≠ some '-' ∨ after = some ']' ∨ after = some '-' then classOfAtom first
  else
    unless ← advance do failOpen frames
    let last ← classAtom
    let span : Span := ⟨first.span.first, last.span.last⟩
    let first ← rangeEnd first
    let last ← rangeEnd last
    if last.char < first.char then fail .badClassRange span.first span.last
    return .range span first last

/-- Combines a set with the one on its left, if there is one. -/
def combined (frames : List ClassFrame) (right : ClassTree) : ClassTree × List ClassFrame :=
  match frames with
  | .combine op left :: outer =>
    (.combine ⟨left.span.first, right.span.last⟩ op left right, outer)
  | _ => (right, frames)

/-- The sign of two characters that combines sets, if it comes next. -/
def setOp? : List Char → Option SetOp
  | '&' :: '&' :: _ => some .inter
  | '-' :: '-' :: _ => some .diff
  | '~' :: '~' :: _ => some .symmDiff
  | _ => none

/-- Reads on in a set until all brackets are closed, in at most `n` steps. -/
def classRest : Nat → List ClassFrame → ClassItems → Reader Tree
  | 0, frames, _ => failOpen frames
  | n + 1, frames, items => do
    dropGap
    let cs ← rest
    match cs.head? with
    | none => failOpen frames
    | some '[' =>
      match ← namedClass? with
      | some named => classRest n frames (items.push named)
      | none =>
        let (frame, inner) ← openBracket items
        classRest n (frame :: frames) inner
    | some ']' =>
      match combined frames items.toTree with
      | (inner, .bracket outer span negated :: frames) =>
        drop 1
        let span : Span := ⟨span.first, ← place⟩
        if frames.isEmpty then return .bracket span negated inner
        else classRest n frames (outer.push (.bracket span negated inner))
      | (_, frames) => failOpen frames
    | some _ =>
      match setOp? cs with
      | some op =>
        drop 2
        let (left, frames) := combined frames items.toTree
        classRest n (.combine op left :: frames) (.startAt (← place))
      | none => classRest n frames (items.push (← classItem frames))

/-- Reads a set of characters, from the bracket on. -/
def bracket : Reader Tree := do
  let (frame, items) ← openBracket (.startAt (← place))
  classRest (← left) [frame] items

end Reader

end TableProbe
