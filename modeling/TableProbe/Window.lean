import TableProbe.Checked

/-!
# Windows

A worker adds its keys in the order of their sequence numbers and removes them
in the same order.  So what it has in the table is, at any time, a window of
sequence numbers, given by two counters.
-/

namespace TableProbe

/-- The window of sequence numbers that a worker expects to find in the table:
those that it inserted and did not erase yet. -/
structure Window where
  /-- How many keys were erased, and the sequence number of the oldest key that
  is left. -/
  erased : UInt64
  /-- How many keys were inserted, and the sequence number of the next new key. -/
  inserted : UInt64
  deriving DecidableEq, Repr

/-- Which counter of a window moves on. -/
inductive Move
  | none
  | erased
  | inserted
  deriving DecidableEq, Repr

namespace Window

/-- Whether a sequence number lies in the window. -/
def contains (w : Window) (seq : UInt64) : Bool := w.erased ≤ seq && seq < w.inserted

/-- The window after a counter moved on by one. -/
def advance (w : Window) : Move → Except Crash Window
  | .none => .ok w
  | .erased => do return { w with erased := ← Checked.add w.erased 1 }
  | .inserted => do return { w with inserted := ← Checked.add w.inserted 1 }

theorem contains_iff {w : Window} {seq : UInt64} :
    w.contains seq = true ↔ w.erased ≤ seq ∧ seq < w.inserted := by
  simp [contains]

end Window

end TableProbe
