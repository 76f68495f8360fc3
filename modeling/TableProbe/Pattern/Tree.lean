import TableProbe.Pattern.Basic
import TableProbe.Pattern.Defect

/-!
# Written patterns

How a pattern is written, with the stretch of the text that each of its parts
takes.  What a part means depends on the flags that are set where it stands.
-/

namespace TableProbe

/-- A flag that changes how a pattern is understood. -/
inductive Flag
  /-- Letters stand for themselves in either case. -/
  | anyCase
  /-- Starts and ends of lines count as those of the text. -/
  | byLine
  /-- A dot stands for the end of a line too. -/
  | dotAll
  /-- Repetitions prefer few pieces. -/
  | fewest
  /-- Characters are those of Unicode, not bytes. -/
  | wide
  /-- Lines may end with carriage returns too. -/
  | returns
  /-- Blanks and comments are left out. -/
  | loose
  deriving DecidableEq, Repr

/-- The letter of a flag. -/
def Flag.ofChar? : Char → Option Flag
  | 'i' => some .anyCase
  | 'm' => some .byLine
  | 's' => some .dotAll
  | 'U' => some .fewest
  | 'u' => some .wide
  | 'R' => some .returns
  | 'x' => some .loose
  | _ => none

/-- Flags that are set or cleared, in the order in which they are written. -/
abbrev FlagChanges := List (Flag × Bool)

/-- The classes of characters with short names, each for its ASCII characters. -/
inductive NamedClass
  | alnum
  | alpha
  | ascii
  | blank
  | cntrl
  | digit
  | graph
  | lower
  | print
  | punct
  | space
  | upper
  | word
  | xdigit
  deriving DecidableEq, Repr

namespace NamedClass

/-- The class with a name. -/
def ofName? : String → Option NamedClass
  | "alnum" => some alnum
  | "alpha" => some alpha
  | "ascii" => some ascii
  | "blank" => some blank
  | "cntrl" => some cntrl
  | "digit" => some digit
  | "graph" => some graph
  | "lower" => some lower
  | "print" => some print
  | "punct" => some punct
  | "space" => some space
  | "upper" => some upper
  | "word" => some word
  | "xdigit" => some xdigit
  | _ => none

/-- The characters of a class. -/
def chars (c : NamedClass) : CharSet :=
  .ofRanges <| match c with
    | alnum => [(48, 57), (65, 90), (97, 122)]
    | alpha => [(65, 90), (97, 122)]
    | ascii => [(0, 127)]
    | blank => [(9, 9), (32, 32)]
    | cntrl => [(0, 31), (127, 127)]
    | digit => [(48, 57)]
    | graph => [(33, 126)]
    | lower => [(97, 122)]
    | print => [(32, 126)]
    | punct => [(33, 47), (58, 64), (91, 96), (123, 126)]
    | space => [(9, 13), (32, 32)]
    | upper => [(65, 90)]
    | word => [(48, 57), (65, 90), (95, 95), (97, 122)]
    | xdigit => [(48, 57), (65, 70), (97, 102)]

end NamedClass

/-- A character that stands for itself. -/
structure Letter where
  span : Span
  char : Char
  /-- Whether it is written as the two hexadecimal digits of a byte. -/
  isByte : Bool
  deriving DecidableEq, Repr

/-- The smallest parts of a pattern, as they are written. -/
inductive Atom
  | letter (l : Letter)
  | dot (span : Span)
  /-- The start of the text, or of a line. -/
  | start (span : Span)
  /-- The end of the text, or of a line. -/
  | stop (span : Span)
  | textStart (span : Span)
  | textEnd (span : Span)
  | word (span : Span) (place : WordPlace)
  /-- A class of one letter; a capital letter stands for all other characters. -/
  | shorthand (span : Span) (kind : NamedClass) (negated : Bool)
  /-- A class by a property of characters: the name of the class, unless a
  value of a property is named. -/
  | property (span : Span) (name : Option String)
  deriving DecidableEq, Repr

/-- The stretch that an atom takes. -/
def Atom.span : Atom → Span
  | letter l => l.span
  | dot s | start s | stop s | textStart s | textEnd s | word s _ | shorthand s ..
  | property s _ => s

/-- How two sets of characters are combined. -/
inductive SetOp
  | inter
  | diff
  | symmDiff
  deriving DecidableEq, Repr

/-- A set of characters in brackets, as it is written. -/
inductive ClassTree
  | letter (l : Letter)
  | range (span : Span) (first last : Letter)
  | named (span : Span) (kind : NamedClass) (negated : Bool)
  | shorthand (span : Span) (kind : NamedClass) (negated : Bool)
  | property (span : Span) (name : Option String)
  | bracket (span : Span) (negated : Bool) (inner : ClassTree)
  | union (span : Span) (items : List ClassTree)
  | combine (span : Span) (op : SetOp) (left right : ClassTree)
  deriving Repr

/-- The stretch that a set takes. -/
def ClassTree.span : ClassTree → Span
  | letter l => l.span
  | range s .. | named s .. | shorthand s .. | property s _ | bracket s .. | union s _
  | combine s .. => s

/-- A pattern, as it is written. -/
inductive Tree
  | empty (span : Span)
  | atom (a : Atom)
  | bracket (span : Span) (negated : Bool) (inner : ClassTree)
  /-- Flags for what follows in the same group. -/
  | flags (span : Span) (changes : FlagChanges)
  | times (span : Span) (inner : Tree) (count : Count)
  /-- A group that is marked, or one with flags of its own. -/
  | group (span : Span) (changes : Option FlagChanges) (inner : Tree)
  | sequence (span : Span) (parts : List Tree)
  | choice (span : Span) (parts : List Tree)
  deriving Repr

namespace Tree

/-- The stretch that a pattern takes. -/
def span : Tree → Span
  | atom a => a.span
  | empty s | bracket s .. | flags s _ | times s .. | group s .. | sequence s _ | choice s _ => s

/-- Parts one after the other. -/
def ofParts (span : Span) : List Tree → Tree
  | [] => empty span
  | [t] => t
  | ts => sequence span ts

end Tree

/-! ## Depth

Brackets, repetitions, groups, sequences and choices can be put into each other only so often.
-/

mutual

/-- The first part of a set that lies below the given number of levels. -/
def ClassTree.tooDeep (levels : Nat) : ClassTree → Option Span
  | .bracket span _ inner => if levels = 0 then some span else inner.tooDeep (levels - 1)
  | .union span items =>
    if items.length < 2 then none
    else if levels = 0 then some span
    else ClassTree.tooDeepAmong (levels - 1) items
  | .combine span _ left right =>
    if levels = 0 then some span
    else (left.tooDeep (levels - 1)).or (right.tooDeep (levels - 1))
  | _ => none

/-- The first part of some sets that lies below the given number of levels. -/
def ClassTree.tooDeepAmong (levels : Nat) : List ClassTree → Option Span
  | [] => none
  | t :: rest => (t.tooDeep levels).or (ClassTree.tooDeepAmong levels rest)

end

mutual

/-- The first part of a pattern that lies below the given number of levels. -/
def Tree.tooDeep (levels : Nat) : Tree → Option Span
  | .bracket span _ inner => if levels = 0 then some span else inner.tooDeep (levels - 1)
  | .times span inner _ => if levels = 0 then some span else inner.tooDeep (levels - 1)
  | .group span _ inner => if levels = 0 then some span else inner.tooDeep (levels - 1)
  | .sequence span parts =>
    if levels = 0 then some span else Tree.tooDeepAmong (levels - 1) parts
  | .choice span parts =>
    if levels = 0 then some span else Tree.tooDeepAmong (levels - 1) parts
  | _ => none

/-- The first part of some patterns that lies below the given number of levels. -/
def Tree.tooDeepAmong (levels : Nat) : List Tree → Option Span
  | [] => none
  | t :: rest => (t.tooDeep levels).or (Tree.tooDeepAmong levels rest)

end

end TableProbe
