import TableProbe.Pattern.Meaning
import TableProbe.Pattern.Reading
import TableProbe.Pattern.Room
import TableProbe.Pattern.Search

/-!
# From texts to patterns

A text is refused as a pattern if it has a defect, if searching for it forwards
would take too much room, if it asks for words of more than ASCII characters,
or if searching for it backwards would take too much room, in this order.
-/

namespace TableProbe

/-- Why a text is refused as a pattern. -/
inductive PatternError
  | defect (text : String) (d : Defect)
  | tooLarge
  | noWords
  deriving DecidableEq, Repr

/-- The lines that a refused pattern is reported with. -/
def PatternError.lines : PatternError → List String
  | defect text d => d.report text
  | tooLarge => [s!"Compiled regex exceeds size limit of {Pattern.maxRoom} bytes."]
  | noWords => ["error building NFA"]

/-- The pattern that a text spells. -/
def Pattern.ofText (text : String) : Except PatternError Pattern := do
  let tree ← (Tree.ofText text).mapError (.defect text)
  let (p, _) ← (tree.meaning .initial).mapError (.defect text)
  if p.isTooLarge .forwards then throw .tooLarge
  if p.asksForWords then throw .noWords
  if p.isTooLarge .backwards then throw .tooLarge
  return p

end TableProbe
