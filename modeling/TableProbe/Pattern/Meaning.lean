import TableProbe.Pattern.Plain
import TableProbe.Pattern.Tree

/-!
# The meaning of written patterns

A written pattern is read from left to right with the flags that are set where
its parts stand.  There are no tables of classes and cases beyond ASCII, so
parts that need them are defects, as long as characters are those of Unicode;
otherwise, parts that could take a piece of a character are.
-/

namespace TableProbe

/-- The flags that are set at a place. -/
structure Flags where
  anyCase : Bool
  byLine : Bool
  dotAll : Bool
  fewest : Bool
  wide : Bool
  returns : Bool

namespace Flags

/-- The flags at the beginning of a pattern. -/
def initial : Flags where
  anyCase := false
  byLine := false
  dotAll := false
  fewest := false
  wide := true
  returns := false

/-- The flags after one was set or cleared. -/
def change (f : Flags) : Flag × Bool → Flags
  | (.anyCase, b) => { f with anyCase := b }
  | (.byLine, b) => { f with byLine := b }
  | (.dotAll, b) => { f with dotAll := b }
  | (.wide, b) => { f with wide := b }
  | (.returns, b) => { f with returns := b }
  | (.fewest, b) => { f with fewest := b }
  | (.loose, _) => f

end Flags

/-- A defect in a stretch. -/
def Defect.found {α : Type} (flaw : Flaw) (span : Span) : Except Defect α :=
  .error ⟨flaw, span, none⟩

/-! ## Sets of characters -/

/-- The name of a property without blanks, lines and capital letters, and
without `is` at its beginning. -/
def plainName (name : String) : List Char :=
  let chars := name.toList
  let chars := match chars with
    | a :: b :: rest => if a.toLower = 'i' ∧ b.toLower = 's' then rest else chars
    | _ => chars
  (chars.filter fun c => c.toNat < 128 ∧ c ≠ ' ' ∧ c ≠ '_' ∧ c ≠ '-').map Char.toLower

/-- A class by a property: none is known.  Names that are known to stand for a
value of a property are told apart. -/
def classOfProperty (f : Flags) (span : Span) (name : Option String) : Except Defect CharSet :=
  if ¬ f.wide then Defect.found .wideCharacter span
  else if (name.map plainName).any fun n => n = "cf".toList || n = "sc".toList ||
      n = "lc".toList then
    Defect.found .unknownPropertyValue span
  else Defect.found .unknownProperty span

/-- A class of one letter. -/
def classOfShorthand (f : Flags) (span : Span) (kind : NamedClass) (negated : Bool) :
    Except Defect CharSet :=
  if f.wide then Defect.found .noWideClasses span
  else if negated then Defect.found .notText span
  else .ok kind.chars

/-- A set with the letters of the other case. -/
def withCases (f : Flags) (span : Span) (s : CharSet) : Except Defect CharSet :=
  if ¬ f.anyCase then .ok s
  else if ¬ f.wide then .ok s.foldCase
  else if s.isEmpty then .ok s
  else Defect.found .noWideCases span

/-- A set, or all other characters. -/
def withSign (f : Flags) (span : Span) (negated : Bool) (s : CharSet) :
    Except Defect CharSet := do
  let s ← withCases f span s
  let s := if negated then s.complement else s
  if ¬ f.wide ∧ ¬ s.isAscii then Defect.found .notText span
  else .ok s

/-- A character as a member of a set. -/
def Letter.inClass (f : Flags) (l : Letter) : Except Defect Char :=
  if f.wide ∨ l.char.toNat < 128 then .ok l.char
  else if l.isByte then Defect.found .notText l.span
  else Defect.found .wideCharacter l.span

/-- Combines two sets. -/
def SetOp.apply : SetOp → CharSet → CharSet → CharSet
  | inter => CharSet.inter
  | diff => CharSet.diff
  | symmDiff => CharSet.symmDiff

mutual

/-- The characters of a written set. -/
def ClassTree.meaning (f : Flags) : ClassTree → Except Defect CharSet
  | .letter l => return .ofChar (← l.inClass f)
  | .range _ first last => do
    let first ← first.inClass f
    let last ← last.inClass f
    return .ofRanges [(first.toNat, last.toNat)]
  | .named span kind negated => withSign f span negated kind.chars
  | .shorthand span kind negated => classOfShorthand f span kind negated
  | .property span name => classOfProperty f span name
  | .bracket span negated inner => do withSign f span negated (← inner.meaning f)
  | .union _ items => ClassTree.meaningOfAll f items
  | .combine _ op left right => do
    let l ← left.meaning f
    let r ← right.meaning f
    let r ← withCases f right.span r
    let l ← withCases f left.span l
    return op.apply l r

/-- The characters of some written sets. -/
def ClassTree.meaningOfAll (f : Flags) : List ClassTree → Except Defect CharSet
  | [] => return .empty
  | t :: rest => do
    let s ← t.meaning f
    return s.union (← ClassTree.meaningOfAll f rest)

end

/-! ## Patterns -/

/-- A character that stands for itself. -/
def Letter.meaning (f : Flags) (l : Letter) : Except Defect Pattern :=
  if ¬ f.wide ∧ l.isByte ∧ 128 ≤ l.char.toNat then Defect.found .notText l.span
  else return .ofSet (← withCases f l.span (.ofChar l.char))

/-- Any character, as far as a dot stands for it. -/
def dotMeaning (f : Flags) (span : Span) : Except Defect Pattern :=
  if ¬ f.wide then Defect.found .notText span
  else if f.dotAll then .ok (.ofSet CharSet.empty.complement)
  else if f.returns then .ok (.ofSet (CharSet.ofRanges [(10, 10), (13, 13)]).complement)
  else .ok (.ofSet (CharSet.ofChar '\n').complement)

/-- The meaning of an atom. -/
def Atom.meaning (f : Flags) : Atom → Except Defect Pattern
  | letter l => l.meaning f
  | dot span => dotMeaning f span
  | start _ => .ok (.anchor (if f.byLine then .lineStart f.returns else .textStart))
  | stop _ => .ok (.anchor (if f.byLine then .lineEnd f.returns else .textEnd))
  | textStart _ => .ok (.anchor .textStart)
  | textEnd _ => .ok (.anchor .textEnd)
  | word _ place => .ok (.anchor (.word place (!f.wide)))
  | shorthand span kind negated => return .ofSet (← classOfShorthand f span kind negated)
  | property span name => return .ofSet (← classOfProperty f span name)

mutual

/-- The meaning of a written pattern, and the flags after it. -/
def Tree.meaning (f : Flags) : Tree → Except Defect (Pattern × Flags)
  | .empty _ => return (.empty, f)
  | .atom a => return (← a.meaning f, f)
  | .bracket span negated inner => do
    let s ← inner.meaning f
    return (.ofSet (← withSign f span negated s), f)
  | .flags _ changes => return (.empty, changes.foldl Flags.change f)
  | .times _ inner count => do
    let (p, f) ← inner.meaning f
    return (p.repeated { count with fewest := count.fewest != f.fewest }, f)
  | .group _ changes inner => do
    let (p, _) ← inner.meaning ((changes.getD []).foldl Flags.change f)
    return (if changes.isNone then .group p else p, f)
  | .sequence _ parts => do
    let (ps, f) ← Tree.meaningOfAll f parts
    return (.ofSequence ps, f)
  | .choice _ parts => do
    let (ps, f) ← Tree.meaningOfAll f parts
    return (.ofChoice ps, f)

/-- The meanings of written patterns that follow one another, and the flags
after them. -/
def Tree.meaningOfAll (f : Flags) : List Tree → Except Defect (List Pattern × Flags)
  | [] => return ([], f)
  | t :: rest => do
    let (p, f) ← t.meaning f
    let (ps, f) ← Tree.meaningOfAll f rest
    return (p :: ps, f)

end

end TableProbe
