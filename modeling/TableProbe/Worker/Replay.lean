import TableProbe.Schedule
import TableProbe.Worker.Step

/-!
# Replaying a schedule

A worker goes through the schedule in rounds, slot by slot, until it has done
all its operations; the last round may end early.  It stops at the first step
that fails.
-/

namespace TableProbe.Worker

/-- Goes through the given slots, starting with operation `op`, and stops
before operation `ops`.  The result is the next operation. -/
def round (ops : UInt64) : List (UInt64 × OpKind) → UInt64 → Task Worker UInt64
  | [], op => return op
  | (slot, kind) :: places, op => do
    if op = ops then
      return op
    else
      step op slot kind ops
      let next ← Task.compute (Checked.add op 1)
      round ops places next

/-- Goes through the schedule again and again, at most so many times, until
`ops` operations are done. -/
def rounds (schedule : Schedule) (ops : UInt64) : Nat → UInt64 → Task Worker Unit
  | 0, _ => return ()
  | n + 1, op => do
    if op < ops then
      let next ← round ops schedule.places op
      rounds schedule ops n next

/-- Does `ops` operations as the schedule says.  Every round does at least one,
so `ops` rounds are enough. -/
def replay (schedule : Schedule) (ops : UInt64) : Task Worker Unit :=
  rounds schedule ops ops.toNat 0

end TableProbe.Worker
