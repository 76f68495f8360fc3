import TableProbe.Checked

/-!
# Partition of work between threads

A number of items is split between threads in equal shares; the last thread
also takes what is left over.
-/

namespace TableProbe.Partition

/-- How many of `n` items fall to a thread. -/
def share (n threads thread : UInt64) : Except Crash UInt64 := do
  let equal ← Checked.div n threads
  if thread = threads - 1 then
    let left ← Checked.rem n threads
    Checked.add equal left
  else
    return equal

/-- The numbers of all threads, in order. -/
def threadIds (threads : UInt64) : List UInt64 :=
  (List.range threads.toNat).map UInt64.ofNat

@[simp] theorem length_threadIds (threads : UInt64) :
    (threadIds threads).length = threads.toNat := by
  simp [threadIds]

end TableProbe.Partition
