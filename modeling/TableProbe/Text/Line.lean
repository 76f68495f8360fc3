/-!
# Lines

A line ends with a line feed, which may have a carriage return before it.  The
end of the last line may be missing.
-/

namespace TableProbe.Text

/-- A line without its end. -/
def withoutEnd (line : List Char) : List Char :=
  if line.getLast? = some '\n' then
    let line := line.dropLast
    if line.getLast? = some '\r' then line.dropLast else line
  else line

/-- The lines of a text without their ends. -/
def lines (text : List Char) : List (List Char) :=
  (text.splitBy fun c _ => c ≠ '\n').map withoutEnd

end TableProbe.Text
