import TableProbe.Pattern.Defect
import TableProbe.Text.Blank

/-!
# Readers of written patterns

A reader goes through a text from the front and either comes to a result or
stops at a defect.  In a loose text blanks and comments, from a number sign to
the end of the line, have no meaning of their own.
-/

namespace TableProbe

/-- What is still to be read of a text. -/
structure Cursor where
  /-- How many characters were read. -/
  place : Nat
  /-- How many characters there are in all. -/
  size : Nat
  rest : List Char
  /-- Whether blanks and comments are left out. -/
  loose : Bool

/-- A step in reading a text. -/
abbrev Reader := StateT Cursor (Except Defect)

namespace Reader

/-- How many characters at the front are blanks and comments. -/
def gap (inComment : Bool) : List Char → Nat
  | [] => 0
  | c :: rest =>
    if inComment then gap (c ≠ '\n') rest + 1
    else if Text.isBlank c then gap false rest + 1
    else if c = '#' then gap true rest + 1
    else 0

/-- Where the reader is. -/
def place : Reader Nat := return (← get).place

/-- What is still to be read. -/
def rest : Reader (List Char) := return (← get).rest

/-- How many characters are still to be read. -/
def left : Reader Nat := return (← get).size - (← get).place

/-- Whether nothing is left. -/
def atEnd : Reader Bool := return (← get).rest.isEmpty

/-- Passes some characters. -/
def drop (n : Nat) : Reader Unit :=
  modify fun c => { c with place := c.place + (c.rest.take n).length, rest := c.rest.drop n }

/-- Passes blanks and comments, if the text is loose. -/
def dropGap : Reader Unit := do
  let c ← get
  if c.loose then drop (gap false c.rest)

/-- Passes a character and the gap after it; tells whether another one is left. -/
def advance : Reader Bool := do
  drop 1
  dropGap
  return !(← atEnd)

/-- Passes a text, if it is what comes next. -/
def accept (text : String) : Reader Bool := do
  if text.toList.isPrefixOf (← rest) then
    drop text.toList.length
    return true
  return false

/-- Passes the first of some texts that comes next, if there is one. -/
def acceptAny : List String → Reader Bool
  | [] => return false
  | text :: texts => do if ← accept text then return true else acceptAny texts

/-- Stops at a defect in a stretch. -/
def fail {α : Type} (flaw : Flaw) (first last : Nat) : Reader α :=
  throw ⟨flaw, ⟨first, last⟩, none⟩

/-- Stops at a defect in the next character. -/
def failHere {α : Type} (flaw : Flaw) : Reader α := do
  let here ← place
  fail flaw here (here + 1)

/-- The characters from here on that pass a test, with the gaps after them; at
most `n` of them. -/
def takeWhile (test : Char → Bool) : Nat → Reader (List Char)
  | 0 => return []
  | n + 1 => do
    match ← rest with
    | c :: _ =>
      if test c then
        let _ ← advance
        return c :: (← takeWhile test n)
      return []
    | [] => return []

/-- All characters from here on that pass a test, with the gaps after them. -/
def takeAll (test : Char → Bool) : Reader (List Char) := do
  takeWhile test (← left)

end Reader

end TableProbe
