import TableProbe.Journal

/-!
# Scripts

A script is what one or several threads do to the world around them, deed by
deed: they call the table, write notes, raise the alarm and look at the clock.
What a thread does next may depend on the results of its deeds so far.  A
script always comes to its end, whatever these results are.
-/

namespace TableProbe

/-- Who does a deed. -/
inductive Actor
  | main
  | worker (id : UInt64)
  deriving DecidableEq, Repr

/-- What the caller of a table gets: how the call ended, and how many
microseconds it took. -/
structure Reply where
  outcome : Outcome
  micros : UInt64

/-- One deed. -/
inductive Deed
  /-- Call the table. -/
  | call (c : Call)
  /-- Write a note. -/
  | note (n : Note)
  /-- Raise the alarm about a table that does not do what it should. -/
  | alarm (e : WorkError)
  /-- Look at the clock. -/
  | clock
  deriving DecidableEq

/-- What a deed results in; the clock shows nanoseconds. -/
abbrev Deed.Result : Deed → Type
  | call _ => Reply
  | note _ => Unit
  | alarm _ => Unit
  | clock => Nat

/-- What threads do until they come to a result. -/
inductive Script (α : Type) where
  /-- Nothing more is done. -/
  | done (a : α)
  /-- Someone does a deed, and the rest depends on its result. -/
  | act (who : Actor) (deed : Deed) (rest : deed.Result → Script α)

namespace Script

variable {α β γ : Type}

/-- One script after another. -/
def bind : Script α → (α → Script β) → Script β
  | done a, f => f a
  | act who deed rest, f => act who deed fun r => (rest r).bind f

instance : Monad Script where
  pure := done
  bind := bind

@[simp] theorem done_bind (a : α) (f : α → Script β) : (done a >>= f) = f a := rfl

@[simp] theorem act_bind (who : Actor) (deed : Deed) (rest : deed.Result → Script α)
    (f : α → Script β) : (act who deed rest >>= f) = act who deed fun r => rest r >>= f := rfl

theorem bind_done (s : Script α) : s >>= done = s := by
  induction s with
  | done a => rfl
  | act who deed rest ih => exact congrArg (act who deed) (funext ih)

theorem bind_assoc (s : Script α) (f : α → Script β) (g : β → Script γ) :
    s >>= f >>= g = s >>= fun a => f a >>= g := by
  induction s with
  | done a => rfl
  | act who deed rest ih => exact congrArg (act who deed) (funext ih)

instance : LawfulMonad Script :=
  LawfulMonad.mk' Script
    (fun s => bind_done s)
    (fun _ _ => rfl)
    bind_assoc

/-- The script of a single deed. -/
def perform (who : Actor) (deed : Deed) : Script deed.Result := act who deed done

/-- One script after another, with all their results. -/
def sequence : List (Script α) → Script (List α)
  | [] => done []
  | s :: scripts => do
    let a ← s
    let rest ← sequence scripts
    return a :: rest

/-- Several scripts at once.  The turns say whose deed comes next, by its place
in the list; a turn of a script that has come to its end, or of none, is
skipped.  After the last turn the scripts go on one after another.  Every way
in which their deeds can follow each other is one list of turns. -/
def interleave : List Nat → List (Script α) → Script (List α)
  | [], scripts => sequence scripts
  | turn :: turns, scripts =>
    match scripts[turn]? with
    | some (act who deed rest) =>
      act who deed fun r => interleave turns (scripts.set turn (rest r))
    | _ => interleave turns scripts

end Script

end TableProbe
