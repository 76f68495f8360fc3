import TableProbe.Script.Task
import TableProbe.Worker.Basic

/-!
# Steps of a worker

A step carries one planned probe out: the call is made, its latency recorded if
it was answered, and the answer compared with the expected one.  Only an answer
as expected moves the window on.
-/

namespace TableProbe.Worker

/-- Compares an answer with what was expected, and stops with a report if they
differ. -/
def check (op : UInt64) (kind : OpKind) (probe : Probe) (got : Bool) : Task Worker Unit := do
  let w ← get
  unless got = probe.expected do
    let m : Mismatch :=
      { thread := w.thread, kind, seq := probe.seq, op, got, expected := probe.expected }
    Task.report (.worker w.thread) (.mismatch m w.window) (.mismatch m)

/-- Moves the window on after an answer as expected.  A window always begins
before it ends. -/
def advance (move : Move) : Task Worker Unit := do
  let w ← get
  let window ← Task.compute (w.window.advance move)
  set { w with window }
  unless window.erased ≤ window.inserted do
    throw (.crash .countersOutOfOrder)

/-- Does one operation of a run of `ops` ones, for a slot of the schedule. -/
def step (op slot : UInt64) (kind : OpKind) (ops : UInt64) : Task Worker Unit := do
  let w ← get
  let probe ← Task.compute (w.plan op slot kind ops)
  set { w with values := probe.values }
  let reply ← Task.perform (.worker w.thread) (.call probe.call)
  let answer ← Task.answerOf reply.outcome
  modify fun w => w.sample reply.micros
  check op kind probe answer.holds
  advance probe.move

end TableProbe.Worker
