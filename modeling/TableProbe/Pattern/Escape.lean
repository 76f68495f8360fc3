import TableProbe.Pattern.Reader
import TableProbe.Pattern.Tree
import TableProbe.Power

/-!
# Escapes and numbers in written patterns

A backslash takes the meaning from a sign, and gives one to a letter: a control
character, a character by its number, a class, or a place in the text.  Numbers
are hexadecimal in escapes and decimal in counts.
-/

namespace TableProbe.Reader

/-- The value of a hexadecimal digit. -/
def hexDigit? (c : Char) : Option Nat :=
  if '0' ≤ c ∧ c ≤ '9' then some (c.toNat - 48)
  else if 'a' ≤ c ∧ c ≤ 'f' then some (c.toNat - 87)
  else if 'A' ≤ c ∧ c ≤ 'F' then some (c.toNat - 55)
  else none

/-- The character with a number, if there is one. -/
def charOf? (n : Nat) : Option Char := if n.isValidChar then some (Char.ofNat n) else none

/-- Reads so many hexadecimal digits; a gap may stand between two of them. -/
def fixedHex : Nat → Nat → Reader Nat
  | 0, value => return value
  | n + 1, value => do
    match ← rest with
    | c :: _ =>
      match hexDigit? c with
      | some d =>
        let more ← advance
        if n = 0 ∨ more then fixedHex n (value * 16 + d) else fail .cutEscape (← place) (← place)
      | none => failHere .badHexDigit
    | [] => fail .cutEscape (← place) (← place)

/-- Reads hexadecimal digits up to a closing brace that is not read, the value
before them given. -/
def bracedHex : Nat → Nat → Reader Nat
  | 0, value => return value
  | n + 1, value => do
    match ← rest with
    | [] | '}' :: _ => return value
    | c :: _ =>
      match hexDigit? c with
      | some d =>
        let _ ← advance
        bracedHex n (value * 16 + d)
      | none => failHere .badHexDigit

/-- Reads the number of a character, from the letter on that tells how many
digits it has. -/
def hexLetter (start digits : Nat) : Reader Letter := do
  unless ← advance do fail .cutEscape (← place) (← place)
  let first ← place
  if (← rest).head? = some '{' then
    let _ ← advance
    let begun ← place
    let value ← bracedHex (← left) 0
    let last ← place
    if ← atEnd then fail .cutEscape first last
    let _ ← advance
    if begun = last then fail .emptyHex first (← place)
    match charOf? value with
    | some c => return ⟨⟨start, ← place⟩, c, false⟩
    | none => fail .badHex (first + 1) last
  else
    let value ← fixedHex digits 0
    match charOf? value with
    | some c => return ⟨⟨start, ← place⟩, c, digits = 2⟩
    | none => fail .badHex first (← place)

/-- The name of a class by a property, unless it names a value of a property
too. -/
def propertyName? (name : List Char) : Option String :=
  if name.contains ':' || name.contains '=' then none else some (String.ofList name)

/-- Reads a class by a property, from the letter before its name on. -/
def property (start : Nat) : Reader Atom := do
  unless ← advance do fail .cutEscape (← place) (← place)
  match ← rest with
  | '{' :: _ =>
    let _ ← advance
    let name ← takeAll (· ≠ '}')
    if ← atEnd then fail .cutEscape (← place) (← place)
    drop 1
    return .property ⟨start, ← place⟩ (propertyName? name)
  | '\\' :: _ => failHere .badProperty
  | c :: _ =>
    let _ ← advance
    return .property ⟨start, ← place⟩ (some (String.singleton c))
  | [] => fail .cutEscape (← place) (← place)

/-- The place that a name in braces stands for. -/
def wordPlace? (name : List Char) : Option WordPlace :=
  match String.ofList name with
  | "start" => some .first
  | "end" => some .last
  | "start-half" => some .notAfter
  | "end-half" => some .notBefore
  | _ => none

/-- Reads the name in braces of a place at a word, if the braces hold no count
instead. -/
def namedPlace? (start : Nat) : Reader (Option WordPlace) := do
  let isPart (c : Char) : Bool := c.isAlpha || c = '-'
  let begun ← get
  unless ← advance do fail .cutWordPlace start (← place)
  let first ← place
  if (← rest).head?.any isPart then
    let name ← takeAll isPart
    let last ← place
    unless (← rest).head? = some '}' do fail .openWordPlace begun.place last
    drop 1
    match wordPlace? name with
    | some place => return some place
    | none => fail .unknownWordPlace first last
  else
    set begun
    return none

/-- The character that a letter stands for after a backslash. -/
def control? : Char → Option Char
  | 'a' => some '\x07'
  | 'f' => some '\x0c'
  | 't' => some '\t'
  | 'n' => some '\n'
  | 'r' => some '\r'
  | 'v' => some '\x0b'
  | _ => none

/-- The class that a letter stands for after a backslash, and whether it stands
for all others. -/
def shorthand? : Char → Option (NamedClass × Bool)
  | 'd' => some (.digit, false)
  | 'D' => some (.digit, true)
  | 's' => some (.space, false)
  | 'S' => some (.space, true)
  | 'w' => some (.word, false)
  | 'W' => some (.word, true)
  | _ => none

/-- How many digits the number of a character has after a letter. -/
def hexLength? : Char → Option Nat
  | 'x' => some 2
  | 'u' => some 4
  | 'U' => some 8
  | _ => none

/-- Reads an edge of a word, after its letter. -/
def wordEdge (start : Nat) : Reader Atom := do
  let named ← if (← rest).head? = some '{' then namedPlace? start else pure none
  return .word ⟨start, ← place⟩ (named.getD .edge)

/-- Reads an escape, from the backslash on. -/
def escape : Reader Atom := do
  let start ← place
  drop 1
  match ← rest with
  | [] => fail .cutEscape start (← place)
  | c :: _ =>
    if c.isDigit then fail .backreference start ((← place) + 1)
    else if let some digits := hexLength? c then return .letter (← hexLetter start digits)
    else if c = 'p' ∨ c = 'P' then property start
    else
      drop 1
      let span : Span := ⟨start, ← place⟩
      if let some (kind, negated) := shorthand? c then return .shorthand span kind negated
      else if let some control := control? c then return .letter ⟨span, control, false⟩
      else
        match c with
        | 'A' => return .textStart span
        | 'z' => return .textEnd span
        | 'b' => wordEdge start
        | 'B' => return .word span .offEdge
        | '<' => return .word span .first
        | '>' => return .word span .last
        | _ =>
          if c.toNat < 128 ∧ ¬ c.isAlphanum then return .letter ⟨span, c, false⟩
          else fail .unknownEscape span.first span.last

/-- Reads a decimal number of at most 32 bits, with the blanks around it.  A
defect is a result like any other, since an earlier one may have to be reported
instead. -/
def decimal : Reader (Except Defect Nat) := do
  drop ((← rest).takeWhile Text.isBlank).length
  let first ← place
  let digits ← takeAll Char.isDigit
  let span : Span := ⟨first, ← place⟩
  let _ ← takeAll Text.isBlank
  let value := digits.foldl (fun n c => n * 10 + (c.toNat - 48)) 0
  if digits.isEmpty then return .error ⟨.emptyCount, span, none⟩
  else if 2 ^ 32 ≤ value then return .error ⟨.badNumber, span, none⟩
  else return .ok value

end TableProbe.Reader
