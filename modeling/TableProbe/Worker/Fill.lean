import TableProbe.KeySpace
import TableProbe.Script.Task
import TableProbe.ValueSource

/-!
# Filling the table

Before the mix, every thread adds the first keys of its own key space.  All of
them have to be new to the table.
-/

namespace TableProbe.Worker

/-- Adds `count` keys of a thread, from a sequence number on, with values from
a source. -/
def fillFrom (keys : KeySpace) (thread : UInt64) : Nat → UInt64 → Task ValueSource Unit
  | 0, _ => return ()
  | count + 1, seq => do
    let key ← Task.compute (keys.key seq thread)
    let (value, source) ← Task.compute (← get).next
    set source
    let reply ← Task.perform (.worker thread) (.call (.insert key value))
    let answer ← Task.answerOf reply.outcome
    unless answer.holds do
      Task.report (.worker thread) (.fillRefused thread seq) (.fillRefused thread seq)
    fillFrom keys thread count (seq + 1)

/-- Adds the first `count` keys of a thread. -/
def fill (keys : KeySpace) (thread count : UInt64) : Task ValueSource Unit :=
  fillFrom keys thread count.toNat 0

end TableProbe.Worker
