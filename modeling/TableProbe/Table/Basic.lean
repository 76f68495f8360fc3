import TableProbe.Bytes
import TableProbe.Crash

/-!
# Tables under test

A table answers calls that look keys up, add, overwrite and remove them.  A
call is answered at once and as a whole, so a table is a function from a call
and a state to an outcome and the next state.  Nothing is promised here about
the outcome: a table may answer wrongly, report an error, or crash, and it is
the business of the workers to find out.
-/

namespace TableProbe

/-- One call of a table. -/
inductive Call
  /-- Prepare the table before its first use. -/
  | init
  /-- Add a key that is absent. -/
  | insert (key value : Bytes)
  /-- Look a key up. -/
  | read (key : Bytes)
  /-- Overwrite the value of a key that is present. -/
  | update (key value : Bytes)
  /-- Remove a key that is present. -/
  | erase (key : Bytes)
  deriving DecidableEq, Repr

/-- The key that a call is about. -/
def Call.key? : Call → Option Bytes
  | init => none
  | insert key _ | read key | update key _ | erase key => some key

/-- What a table answers. -/
inductive Answer
  /-- The table is prepared. -/
  | prepared
  /-- Whether the key was added, overwritten or removed. -/
  | changed (yes : Bool)
  /-- The value of the key, if it is there. -/
  | found (value : Option Bytes)
  deriving DecidableEq, Repr

/-- Whether the call took effect: the key was found, added, overwritten or
removed. -/
def Answer.holds : Answer → Bool
  | prepared => true
  | changed yes => yes
  | found value => value.isSome

/-- Why a table refuses to answer. -/
inductive TableError
  /-- The table was not created yet. -/
  | missing
  /-- The storage below the table failed. -/
  | storage (message : String)
  deriving DecidableEq, Repr

/-- The text that a refused call is reported with. -/
def TableError.message : TableError → String
  | missing => "Table 'data' does not exist"
  | storage message => message

/-- How a call ends: with an answer, an error or a crash. -/
abbrev Outcome := Except (Failure TableError) Answer

/-- A table whose states are of type `σ`. -/
structure Table (σ : Type) where
  /-- How a call ends in a state, and the state after it. -/
  answer : Call → σ → Outcome × σ

end TableProbe
