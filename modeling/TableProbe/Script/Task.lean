import TableProbe.Script.Basic

/-!
# Tasks

A task is the script of one thread that keeps a state of its own and can fail.
Whatever the state was changed to before a failure stays, so the thread can be
asked afterwards how far it came.
-/

namespace TableProbe

/-- What one thread does, with a state of type `σ`, until it comes to a result
or fails. -/
abbrev Task (σ α : Type) := ExceptT (Failure WorkError) (StateT σ Script) α

namespace Task

variable {σ α : Type}

/-- The script of a task from a state: its result, and the state that it
leaves. -/
def start (task : Task σ α) (s : σ) : Script (Except (Failure WorkError) α × σ) :=
  StateT.run (ExceptT.run task) s

/-- A task of one deed. -/
def perform (who : Actor) (deed : Deed) : Task σ deed.Result :=
  ExceptT.lift (StateT.lift (Script.perform who deed))

/-- A task that only computes, and crashes if the computation does. -/
def compute (r : Except Crash α) : Task σ α := ExceptT.mk (pure (Failure.ofCrash r))

/-- The answer of a call that has ended; an error or a crash of the table is
one of the task. -/
def answerOf (outcome : Outcome) : Task σ Answer :=
  ExceptT.mk (pure (outcome.mapError (Failure.map WorkError.table)))

/-- Fails because the table does not do what it should: a note is written, the
alarm is raised, and the task ends with the error. -/
def report (who : Actor) (note : Note) (e : WorkError) : Task σ α := do
  perform who (.note note)
  perform who (.alarm e)
  throw (.error e)

end Task

end TableProbe
