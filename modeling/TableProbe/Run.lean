import TableProbe.Partition
import TableProbe.Report
import TableProbe.Worker.Fill
import TableProbe.Worker.Replay

/-!
# Runs

A run fills the table and then does the mix, with as many workers as there are
threads.  All workers of a phase come to their end, whether others fail or not,
and the mix begins only if every one of them could fill its part.  Of several
failing workers the one with the lowest number is reported.
-/

namespace TableProbe

/-- What a run is free to choose without changing what the table has to answer. -/
structure RunOptions where
  keySize : Nat
  valueSize : Nat
  /-- Whether the latency of every call is recorded. -/
  latency : Bool
  deriving DecidableEq, Repr

/-- Whose deed comes next, in each phase of a run. -/
structure Turns where
  fill : List Nat
  mix : List Nat
  deriving DecidableEq, Repr

/-- The turns by which the workers of each phase go one after another. -/
def Turns.inOrder : Turns := ⟨[], []⟩

/-- Why a run fails. -/
inductive RunError
  /-- There are no keys of the wanted kind. -/
  | keys (e : KeySpaceError)
  /-- A worker failed. -/
  | work (e : WorkError)
  /-- A worker crashed. -/
  | workerCrashed
  /-- The latencies of the workers cannot be merged. -/
  | merge (e : MergeError)
  deriving DecidableEq, Repr

/-- The text that a failed run is reported with. -/
def RunError.message : RunError → String
  | keys e => e.message
  | work e => e.message
  | workerCrashed => "worker thread panicked"
  | merge e => e.message

namespace Run

/-- A script that can fail. -/
abbrev Attempt (α : Type) := ExceptT (Failure RunError) Script α

/-- How a run reports a failed worker. -/
def workerFailure : Failure WorkError → Failure RunError
  | .error e => .error (.work e)
  | .crash _ => .error .workerCrashed

/-- The results of all workers, or the failure of the first one that failed. -/
def join {α : Type} (results : List (Except (Failure WorkError) α)) :
    Except (Failure RunError) (List α) :=
  results.mapM fun r => r.mapError workerFailure

/-- Several workers at once. -/
def together {α : Type} (turns : List Nat)
    (workers : List (Script (Except (Failure WorkError) α))) : Attempt (List α) :=
  ExceptT.mk (join <$> Script.interleave turns workers)

/-- A computation as part of a run; an error of it becomes one of the run. -/
def compute {ε α : Type} (cause : ε → RunError) (r : Except (Failure ε) α) : Attempt α :=
  ExceptT.mk (pure (r.mapError (Failure.map cause)))

/-- Looks at the clock. -/
def clock : Attempt Nat := ExceptT.lift (Script.perform .main .clock)

/-- Writes a note. -/
def note (n : Note) : Attempt Unit := ExceptT.lift (Script.perform .main (.note n))

/-- Does something and measures how long it takes. -/
def timed {α : Type} (attempt : Attempt α) : Attempt (α × Duration) := do
  let start ← clock
  let a ← attempt
  let stop ← clock
  return (a, .ofNanos (stop - start))

/-- What falls to one thread. -/
structure Assignment where
  thread : UInt64
  /-- How many keys the thread adds before the mix. -/
  filled : UInt64
  /-- How many operations of the mix it does. -/
  ops : UInt64
  deriving DecidableEq, Repr

/-- What falls to each thread, in order. -/
def assignments (config : Config) : Except Crash (List Assignment) :=
  (Partition.threadIds config.threads).mapM fun thread => do
    let filled ← Partition.share config.prefillElems config.threads thread
    let ops ← Partition.share config.totalOps config.threads thread
    return { thread, filled, ops }

/-- A worker of the first phase.  Its values start from its number. -/
def filler (opts : RunOptions) (keys : KeySpace) (a : Assignment) :
    Script (Except (Failure WorkError) Unit) :=
  Prod.fst <$> (Worker.fill keys a.thread a.filled).start (.ofSeed opts.valueSize a.thread)

/-- What a worker of the second phase does; the result is what it recorded. -/
def mix (schedule : Schedule) (ops : UInt64) : Task Worker (Option Histogram) := do
  Worker.replay schedule ops
  let w ← get
  Task.perform (.worker w.thread) (.note (.finished w.thread w.window))
  return w.samples

/-- A worker of the second phase.  Its values start from its number plus the
number of threads, so that they are not those of the first phase. -/
def mixer (opts : RunOptions) (keys : KeySpace) (schedule : Schedule) (a : Assignment) :
    Script (Except (Failure WorkError) (Option Histogram)) :=
  match Checked.add a.thread keys.threads with
  | .error c => return .error (.crash c)
  | .ok seed =>
    let values := ValueSource.ofSeed opts.valueSize seed
    Prod.fst <$> (mix schedule a.ops).start (.ofThread a.thread a.filled keys values opts.latency)

/-- The first phase: every thread adds its keys. -/
def fillPhase (opts : RunOptions) (keys : KeySpace) (parts : List Assignment) (turns : List Nat) :
    Attempt Unit := do
  let _ ← together turns (parts.map (filler opts keys))

/-- The second phase: every thread does its operations. -/
def mixPhase (opts : RunOptions) (keys : KeySpace) (schedule : Schedule) (parts : List Assignment)
    (turns : List Nat) : Attempt (List (Option Histogram)) := do
  parts.forM fun a => note (.started a.thread a.filled a.ops)
  together turns (parts.map (mixer opts keys schedule))

/-- Fills the table and does the mix. -/
def run (config : Config) (schedule : Schedule) (opts : RunOptions) (turns : Turns) :
    Attempt Report := do
  let keys ← compute .keys (Failure.ofError (KeySpace.new? config.threads opts.keySize))
  let parts ← compute .work (Failure.ofCrash (assignments config))
  let (_, prefillTime) ← timed (fillPhase opts keys parts turns.fill)
  let (latencies, elapsed) ← timed (mixPhase opts keys schedule parts turns.mix)
  let latency ← compute .merge (Failure.ofError (Histogram.mergeAll latencies))
  return { totalOps := config.totalOps
           elapsed
           prefillElems := config.prefillElems
           prefillTime
           latency }

end Run

end TableProbe
