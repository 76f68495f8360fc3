import TableProbe.Pattern.Reader
import TableProbe.Pattern.Tree
import TableProbe.Text.Letter

/-!
# Beginnings of groups in written patterns

A group may have a name, or flags of its own.  Flags in parentheses without
anything else hold for the rest of the group around them.
-/

namespace TableProbe

/-- What a parenthesis opens. -/
inductive Opening
  /-- Nothing: the flags hold from here on. -/
  | flags (changes : FlagChanges)
  /-- A group; with flags of its own, it is not marked. -/
  | group (changes : Option FlagChanges)

/-- The names of groups, with the stretches where they stand. -/
abbrev GroupNames := List (String × Span)

namespace Reader

/-- Whether a character can stand in the name of a group. -/
def isNameChar (first : Bool) (c : Char) : Bool :=
  c = '_' || Text.isLetter c ||
    (!first && (c = '.' || c = '[' || c = ']' || Text.isLetterOrNumber c))

/-- Reads the characters of a name up to the closing sign. -/
def nameChars : Nat → List Char → Reader (List Char)
  | 0, chars => return chars.reverse
  | n + 1, chars => do
    match ← rest with
    | [] | '>' :: _ => return chars.reverse
    | c :: _ =>
      unless isNameChar chars.isEmpty c do failHere .badName
      drop 1
      nameChars n (c :: chars)

/-- Reads the name of a group and its closing sign. -/
def groupName (names : GroupNames) : Reader GroupNames := do
  let first ← place
  let name := String.ofList (← nameChars (← left) [])
  let last ← place
  if ← atEnd then fail .openName last last
  drop 1
  if name.isEmpty then fail .emptyName first first
  match names.find? fun known => known.1 = name with
  | some known => throw ⟨.repeatedName, ⟨first, last⟩, some known.2⟩
  | none => return (name, ⟨first, last⟩) :: names

/-- Signs in a list of flags, the last one first; the one without a flag
negates the flags after it. -/
abbrev FlagSigns := List (Option Flag × Nat)

/-- Reads signs of flags up to a colon or a closing parenthesis that is not
read. -/
def flagSigns : Nat → FlagSigns → Reader FlagSigns
  | 0, signs => return signs
  | n + 1, signs => do
    match ← rest with
    | [] => fail .cutFlags (← place) (← place)
    | c :: _ =>
      if c = ':' ∨ c = ')' then
        match signs with
        | (none, start) :: _ => fail .danglingNegation start (start + 1)
        | _ => return signs
      else
        let here ← place
        let sign ← if c = '-' then pure none
          else match Flag.ofChar? c with
            | some flag => pure (some flag)
            | none => failHere .unknownFlag
        if let some (_, start) := signs.find? fun known => known.1 = sign then
          throw ⟨if c = '-' then .repeatedNegation else .repeatedFlag, ⟨here, here + 1⟩,
            some ⟨start, start + 1⟩⟩
        drop 1
        flagSigns n ((sign, here) :: signs)

/-- What flags are set and cleared by signs in the order in which they were
written. -/
def changesOf (set : Bool) : List (Option Flag) → FlagChanges
  | [] => []
  | none :: rest => changesOf false rest
  | some flag :: rest => (flag, set) :: changesOf set rest

/-- Reads what a parenthesis opens, from the parenthesis on. -/
def opening (names : GroupNames) : Reader (Opening × GroupNames) := do
  let start ← place
  drop 1
  dropGap
  if ← acceptAny ["?=", "?!", "?<=", "?<!"] then
    fail .lookAround start (← place)
  let inner ← place
  if ← acceptAny ["?P<", "?<"] then
    return (.group none, ← groupName names)
  if ← accept "?" then
    if ← atEnd then fail .openGroup start (start + 1)
    let signs ← flagSigns ((← left) + 1) []
    let changes := changesOf true (signs.reverse.map Prod.fst)
    let closed := (← rest).head? = some ')'
    drop 1
    if closed then
      if signs.isEmpty then fail .nothingToRepeat inner inner
      return (.flags changes, names)
    return (.group (some changes), names)
  return (.group none, names)

end Reader

end TableProbe
