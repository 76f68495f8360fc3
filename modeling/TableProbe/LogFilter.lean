import TableProbe.Journal
import TableProbe.Pattern.OfText
import TableProbe.Text.Blank
import TableProbe.Text.Line

/-!
# Log filters

Which notes are shown.  A filter is a list of directives, divided by commas: a
level, a part of the program, or a part with a level.  A directive for a part
holds for all parts whose names begin with its name; the longest name counts.
After a slash there may be a pattern that shown notes have to contain.
-/

namespace TableProbe

/-- The least important level that is shown of a part of the program; none if
nothing is. -/
structure Directive where
  /-- None for all parts. -/
  target : Option String
  level : Option Level
  deriving DecidableEq, Repr

namespace Directive

/-- The length of the name of a directive's part. -/
def reach (d : Directive) : Nat := (d.target.map String.utf8ByteSize).getD 0

/-- Whether a directive holds for a part of the program. -/
def holdsFor (d : Directive) (target : String) : Bool := d.target.all (target.startsWith ·)

/-- The directive by which nothing but errors is shown. -/
def errorsOnly : Directive := ⟨none, some .error⟩

end Directive

/-- Which notes are shown. -/
structure LogFilter where
  directives : List Directive
  /-- What a shown note has to contain. -/
  pattern : Option Pattern
  deriving DecidableEq, Repr

/-- Something in the text of a filter that is left out because it cannot be
understood. -/
inductive FilterProblem
  /-- The whole text has more than one pattern. -/
  | manyPatterns (spec : String)
  | directive (text : String)
  | pattern (e : PatternError)
  deriving DecidableEq, Repr

/-- The warning about a problem. -/
def FilterProblem.warning : FilterProblem → String
  | manyPatterns spec => s!"warning: invalid logging spec '{spec}' (too many '/'s), ignoring it"
  | directive text => s!"warning: invalid logging spec '{text}', ignoring it"
  | pattern e =>
    let reason := "\n".intercalate e.lines
    s!"warning: invalid regex filter - {reason}, ignoring it"

/-- The lines of the warning about a problem. -/
def FilterProblem.lines (p : FilterProblem) : List String :=
  (Text.lines p.warning.toList).map String.ofList

namespace LogFilter

/-- Reads the name of a level, in capital or small letters; `off` shows
nothing. -/
def level? (s : String) : Option (Option Level) :=
  let name := s.toUpper
  if name = "OFF" then some none
  else (Level.all.find? fun l => l.name = name).map some

/-- Reads a directive. -/
def directive? (s : String) : Except String Directive :=
  match s.splitOn "=" with
  | [word] =>
    match level? word with
    | some level => .ok ⟨none, level⟩
    | none => .ok ⟨some word, some .trace⟩
  | [target, word] =>
    let word := Text.trim word
    if word.isEmpty then .ok ⟨some target, some .trace⟩
    else
      match level? word with
      | some level => .ok ⟨some target, level⟩
      | none => .error word
  | _ => .error s

/-- Adds a directive, in place of an earlier one for the same part. -/
def add (ds : List Directive) (d : Directive) : List Directive :=
  if ds.any fun e => e.target = d.target then
    ds.map fun e => if e.target = d.target then d else e
  else ds ++ [d]

/-- Reads a filter.  What cannot be understood is left out; the second result
lists it. -/
def ofSpec (spec : String) : LogFilter × List FilterProblem :=
  match spec.splitOn "/" with
  | parts :: rest =>
    if 1 < rest.length then (⟨[.errorsOnly], none⟩, [.manyPatterns spec])
    else
      let words := ((parts.splitOn ",").map Text.trim).filter fun s => !s.isEmpty
      let read := words.map directive?
      let directives := (read.filterMap Except.toOption).foldl add []
      let pattern := rest.head?.map Pattern.ofText
      (⟨if directives.isEmpty then [.errorsOnly] else directives, pattern.bind Except.toOption⟩,
        read.filterMap (problem? .directive) ++ pattern.toList.filterMap (problem? .pattern))
  | [] => (⟨[.errorsOnly], none⟩, [])
where
  /-- The problem that a failed reading is. -/
  problem? {α ε : Type} (problem : ε → FilterProblem) : Except ε α → Option FilterProblem
    | .ok _ => none
    | .error e => some (problem e)

/-- The filter in use if none is given. -/
def standard : String := "warn"

/-- The directive that decides about a part of the program: of those that hold
for it, the one with the longest name, and of these the last. -/
def deciding? (f : LogFilter) (target : String) : Option Directive :=
  (f.directives.filter (·.holdsFor target)).foldl
    (fun best d =>
      match best with
      | some b => if b.reach ≤ d.reach then some d else some b
      | none => some d)
    none

/-- Whether a note is shown. -/
def shows (f : LogFilter) (n : Note) : Bool :=
  match f.deciding? n.target with
  | some ⟨_, some level⟩ =>
    n.level.rank ≤ level.rank && f.pattern.all (·.occursIn n.message)
  | _ => false

end LogFilter

end TableProbe
