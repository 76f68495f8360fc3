import TableProbe.Text.Line

/-!
# Defects of written patterns

Why a text is not a pattern, and the report about it: the text with carets
under the characters that are to blame, and the reason below.  In a text of
several lines the lines are numbered.
-/

namespace TableProbe

/-- A stretch of a text, from one place to another; places are counted in
characters from 0. -/
structure Span where
  first : Nat
  last : Nat
  deriving DecidableEq, Repr

/-- The reason of a defect. -/
inductive Flaw
  | badClassEscape
  | badClassRange
  | classRangeEnd
  | openClass
  | badNumber
  | emptyHex
  | badHex
  | badHexDigit
  | cutEscape
  | unknownEscape
  | danglingNegation
  | repeatedFlag
  | repeatedNegation
  | cutFlags
  | unknownFlag
  | repeatedName
  | emptyName
  | badName
  | openName
  | openGroup
  | unopenedGroup
  | nesting (limit : Nat)
  | badCountRange
  | emptyCount
  | openCount
  | nothingToRepeat
  | openWordPlace
  | unknownWordPlace
  | cutWordPlace
  | badProperty
  | backreference
  | lookAround
  | wideCharacter
  | notText
  | unknownProperty
  | unknownPropertyValue
  | noWideClasses
  | noWideCases
  deriving DecidableEq, Repr

/-- The text for a reason. -/
def Flaw.message : Flaw → String
  | badClassEscape => "invalid escape sequence found in character class"
  | badClassRange => "invalid character class range, the start must be <= the end"
  | classRangeEnd => "invalid range boundary, must be a literal"
  | openClass => "unclosed character class"
  | badNumber => "decimal literal invalid"
  | emptyHex => "hexadecimal literal empty"
  | badHex => "hexadecimal literal is not a Unicode scalar value"
  | badHexDigit => "invalid hexadecimal digit"
  | cutEscape => "incomplete escape sequence, reached end of pattern prematurely"
  | unknownEscape => "unrecognized escape sequence"
  | danglingNegation => "dangling flag negation operator"
  | repeatedFlag => "duplicate flag"
  | repeatedNegation => "flag negation operator repeated"
  | cutFlags => "expected flag but got end of regex"
  | unknownFlag => "unrecognized flag"
  | repeatedName => "duplicate capture group name"
  | emptyName => "empty capture group name"
  | badName => "invalid capture group character"
  | openName => "unclosed capture group name"
  | openGroup => "unclosed group"
  | unopenedGroup => "unopened group"
  | nesting limit => s!"exceed the maximum number of nested parentheses/brackets ({limit})"
  | badCountRange => "invalid repetition count range, the start must be <= the end"
  | emptyCount => "repetition quantifier expects a valid decimal"
  | openCount => "unclosed counted repetition"
  | nothingToRepeat => "repetition operator missing expression"
  | openWordPlace =>
    "special word boundary assertion is either unclosed or contains an invalid character"
  | unknownWordPlace =>
    "unrecognized special word boundary assertion, valid choices are: start, end, start-half " ++
      "or end-half"
  | cutWordPlace =>
    "found either the beginning of a special word boundary or a bounded repetition on a \\b " ++
      "with an opening brace, but no closing brace"
  | badProperty => "invalid Unicode character class"
  | backreference => "backreferences are not supported"
  | lookAround => "look-around, including look-ahead and look-behind, is not supported"
  | wideCharacter => "Unicode not allowed here"
  | notText => "pattern can match invalid UTF-8"
  | unknownProperty => "Unicode property not found"
  | unknownPropertyValue => "Unicode property value not found"
  | noWideClasses =>
    "Unicode-aware Perl class not found (make sure the unicode-perl feature is enabled)"
  | noWideCases =>
    "Unicode-aware case insensitivity matching is not available " ++
      "(make sure the unicode-case feature is enabled)"

/-- A reason why a text is not a pattern, and the stretch that is to blame. -/
structure Defect where
  flaw : Flaw
  span : Span
  /-- An earlier stretch that the blamed one conflicts with. -/
  earlier : Option Span
  deriving DecidableEq, Repr

namespace Defect

/-- The line and the column of a place in a text, counted from 1. -/
def position (text : List Char) (place : Nat) : Nat × Nat :=
  let before := text.take place
  (before.count '\n' + 1, (before.reverse.takeWhile (· ≠ '\n')).length + 1)

/-- The positions of a stretch: the line and the column of its two ends. -/
abbrev Extent := (Nat × Nat) × (Nat × Nat)

/-- The stretches that are marked, in the order of their beginnings. -/
def extents (text : List Char) (d : Defect) : List Extent :=
  let spans := d.earlier.toList ++ [d.span]
  let spans := spans.mergeSort fun a b => a.first < b.first ||
    (a.first = b.first && a.last ≤ b.last)
  spans.map fun s => (position text s.first, position text s.last)

/-- Carets under the given columns, at least one for each pair of them, in a
line that starts with blanks. -/
def carets (indent : Nat) (columns : List (Nat × Nat)) : String :=
  let line := columns.foldl
    (fun line (first, last) =>
      let line := line ++ List.replicate (first - 1 - line.length) ' '
      line ++ List.replicate (max 1 (last - first)) '^')
    []
  String.ofList (List.replicate indent ' ' ++ line)

/-- The lines of a text, each after a mark of its own and before the carets
that belong to it. -/
def marked (text : List Char) (found : List Extent) (mark : Nat → String) : List String :=
  (Text.lines text).zipIdx.flatMap fun (line, i) =>
    let here := found.filter fun e => e.1.1 = i + 1 && e.2.1 = i + 1
    let shown := mark (i + 1) ++ String.ofList line
    if here.isEmpty then [shown]
    else [shown, carets (mark (i + 1)).length (here.map fun e => (e.1.2, e.2.2))]

/-- A note about a stretch that goes beyond its first line. -/
def acrossLines (e : Extent) : String :=
  s!"on line {e.1.1} (column {e.1.2}) through line {e.2.1} (column {e.2.2 - 1})"

/-- The lines of the report about a defect of a text. -/
def report (text : String) (d : Defect) : List String :=
  let text := text.toList
  let found := d.extents text
  let reason := s!"error: {d.flaw.message}"
  if text.contains '\n' then
    let count := text.count '\n' + 1
    let width := (toString count).length
    let mark (n : Nat) : String :=
      let number := toString n
      String.ofList (List.replicate (width - number.length) ' ') ++ number ++ ": "
    let divider := String.ofList (List.replicate 79 '~')
    let across := found.filter fun e => e.1.1 ≠ e.2.1
    ["regex parse error:", divider] ++ marked text found mark ++ [divider] ++
      across.map acrossLines ++ [reason]
  else "regex parse error:" :: marked text found (fun _ => "    ") ++ [reason]

end Defect

end TableProbe
