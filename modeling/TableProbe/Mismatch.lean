import TableProbe.OpKind
import TableProbe.Table.Basic

/-!
# What workers report

A worker stops at the first sign that a table does not do what it should: an
answer that disagrees with the worker's bookkeeping, a refused insert while the
table is filled, or an error of the table itself.
-/

namespace TableProbe

/-- An answer that disagrees with a worker's bookkeeping. -/
structure Mismatch where
  thread : UInt64
  /-- What the schedule asked for. -/
  kind : OpKind
  /-- The sequence number of the key. -/
  seq : UInt64
  /-- The number of the operation. -/
  op : UInt64
  got : Bool
  expected : Bool
  deriving DecidableEq, Repr

/-- The text that a mismatch is reported with. -/
def Mismatch.message (m : Mismatch) : String :=
  s!"thread {m.thread}: {m.kind.word} of seq {m.seq} at op {m.op} returned {m.got}" ++
    s!", expected {m.expected}"

/-- Why a worker stops. -/
inductive WorkError
  /-- An answer disagrees with the bookkeeping. -/
  | mismatch (m : Mismatch)
  /-- A key that fills the table was refused. -/
  | fillRefused (thread seq : UInt64)
  /-- The table reported an error. -/
  | table (e : TableError)
  deriving DecidableEq, Repr

/-- The text that a stopped worker is reported with. -/
def WorkError.message : WorkError → String
  | mismatch m => m.message
  | fillRefused thread seq => s!"thread {thread}: prefill insert of seq {seq} failed"
  | table e => e.message

end TableProbe
