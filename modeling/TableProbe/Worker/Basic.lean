import TableProbe.Histogram.Basic
import TableProbe.KeySpace
import TableProbe.OpKind
import TableProbe.Table.Basic
import TableProbe.ValueSource
import TableProbe.Window

/-!
# Workers

A worker knows which of its keys are in the table, as a window of sequence
numbers.  For each operation it plans a probe: the call to make, and what the
call has to answer.  The plan of an operation depends on the worker and on the
place of the operation in the run alone, so two runs make the same calls.
-/

namespace TableProbe

/-- Spreads the number of an operation and its slot over all words; sums and
products wrap around. -/
def scatter (op slot : UInt64) : UInt64 := op * 0x5bd1e995 + slot * 0xc6a4a7935bd1e995

/-- What one thread of a run knows. -/
structure Worker where
  thread : UInt64
  /-- Which of its keys are in the table. -/
  window : Window
  keys : KeySpace
  /-- Where the values come from that it writes. -/
  values : ValueSource
  /-- The latencies of its calls, if they are recorded. -/
  samples : Option Histogram

/-- A planned call. -/
structure Probe where
  call : Call
  /-- The sequence number of the key. -/
  seq : UInt64
  /-- Whether the call has to take effect. -/
  expected : Bool
  /-- The counter that moves on if the answer is as expected. -/
  move : Move
  /-- Where later values come from. -/
  values : ValueSource

namespace Worker

/-- A worker that has the first `filled` keys of its thread in the table. -/
def ofThread (thread filled : UInt64) (keys : KeySpace) (values : ValueSource) (latency : Bool) :
    Worker where
  thread := thread
  window := ⟨0, filled⟩
  keys := keys
  values := values
  samples := if latency then some .emptyLatency else none

/-- The key with a sequence number of the worker's thread. -/
def key (w : Worker) (seq : UInt64) : Except Crash Bytes := w.keys.key seq w.thread

/-- Plans to add the next new key. -/
def planInsert (w : Worker) : Except Crash Probe := do
  let seq := w.window.inserted
  let key ← w.key seq
  let (value, values) ← w.values.next
  return { call := .insert key value, seq, expected := true, move := .inserted, values }

/-- Plans to overwrite the value of a key. -/
def planUpdate (w : Worker) (seq : UInt64) (expected : Bool) : Except Crash Probe := do
  let key ← w.key seq
  let (value, values) ← w.values.next
  return { call := .update key value, seq, expected, move := .none, values }

/-- Plans an operation of a run of `ops` ones.  Reads and updates are spread
over the first `ops` sequence numbers; erases take the oldest key, and come
back to the last erased one as long as there is none. -/
def plan (w : Worker) (op slot : UInt64) (kind : OpKind) (ops : UInt64) : Except Crash Probe := do
  let spread := scatter op slot
  match kind with
  | .read =>
    let seq ← Checked.rem spread ops
    let key ← w.key seq
    return { call := .read key, seq, expected := w.window.contains seq, move := .none
             values := w.values }
  | .insert => w.planInsert
  | .erase =>
    let seq := w.window.erased
    let key ← w.key seq
    let left : Bool := seq < w.window.inserted
    return { call := .erase key, seq, expected := left, move := if left then .erased else .none
             values := w.values }
  | .update =>
    let seq ← Checked.rem spread ops
    w.planUpdate seq (w.window.contains seq)
  | .upsert =>
    if w.window.inserted = 0 || spread % 2 = 0 then w.planInsert
    else w.planUpdate (w.window.inserted - 1) true

/-- Records the latency of a call, if latencies are recorded. -/
def sample (w : Worker) (micros : UInt64) : Worker :=
  { w with samples := w.samples.map fun h => h.record micros.toNat }

end Worker

end TableProbe
