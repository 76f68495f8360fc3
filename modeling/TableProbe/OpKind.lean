/-!
# Operation kinds

The five kinds of operation that a benchmark mixes, with the letter and the
word that name each of them in reports.
-/

namespace TableProbe

/-- What one slot of a schedule asks a worker to do. -/
inductive OpKind
  /-- Look a key up. -/
  | read
  /-- Add the next new key. -/
  | insert
  /-- Remove the oldest key that is still there. -/
  | erase
  /-- Overwrite the value of a key. -/
  | update
  /-- Overwrite the newest key, or add the next new one. -/
  | upsert
  deriving DecidableEq, Repr

namespace OpKind

/-- All kinds, in the order in which shares and counts are listed. -/
def all : List OpKind := [read, insert, erase, update, upsert]

/-- The letter that stands for a kind in a printed schedule. -/
def letter : OpKind → Char
  | read => 'R'
  | insert => 'I'
  | erase => 'E'
  | update => 'U'
  | upsert => 'P'

/-- The word that stands for a kind in the report of a mismatch. -/
def word : OpKind → String
  | read => "Read"
  | insert => "Insert"
  | erase => "Erase"
  | update => "Update"
  | upsert => "Upsert"

/-- Different kinds have different letters, so a schedule can be read back from
the text that it is shown as. -/
theorem letter_injective {k l : OpKind} (h : k.letter = l.letter) : k = l := by
  cases k <;> cases l <;> simp_all [letter]

end OpKind

end TableProbe
