import Std.Data.ExtTreeMap
import TableProbe.Table.Basic

/-!
# Faulty tables

A table that goes wrong on purpose, to find out whether workers notice.  Calls
are sorted into groups, one for each worker, and counted within their group.  A
fault strikes the calls of one group whose numbers lie in a range, and the
table below is not called then; it can also be told to lose every insert of a
group after the first few, and to pretend success.  What happens to a call
depends on the calls of its own group alone.  Only calls that concern a key are
counted and struck: preparing the table never goes wrong.
-/

namespace TableProbe

/-- What a struck call ends with. -/
inductive Fault
  /-- An error of the storage. -/
  | error
  /-- A crash of the table. -/
  | crash
  /-- An answer that pretends that the call took effect, or that it did not. -/
  | pretend (holds : Bool)
  deriving DecidableEq, Repr

/-- The answer that says, for a call, that it took effect or that it did not. -/
def Call.pretend : Call → Bool → Answer
  | .init, _ => .prepared
  | .read _, holds => .found (if holds then some [] else none)
  | _, holds => .changed holds

/-- How a struck call ends. -/
def Fault.outcome (fault : Fault) (call : Call) : Outcome :=
  match fault with
  | error => .error (.error (.storage "injected I/O error"))
  | crash => .error (.crash (.table "injected panic"))
  | pretend holds => .ok (call.pretend holds)

/-- A fault for the calls of a group whose numbers lie in a range, both ends
included. -/
structure Strike where
  group : Nat
  first : Nat
  last : Nat
  fault : Fault
  deriving DecidableEq, Repr

/-- All that is to go wrong. -/
structure FaultPlan where
  /-- After how many inserts of a group its further ones are lost. -/
  keepInserts : Option Nat
  /-- Where two strikes meet, the later one counts. -/
  strikes : List Strike
  deriving DecidableEq, Repr

/-- The calls of one group so far. -/
structure Tally where
  calls : Nat
  inserts : Nat
  deriving DecidableEq, Repr

/-- Whether a call adds a key. -/
def Call.isInsert : Call → Bool
  | insert .. => true
  | _ => false

namespace FaultPlan

/-- The plan under which nothing goes wrong. -/
def none : FaultPlan := ⟨.none, []⟩

/-- The fault that strikes the call with the given number in its group. -/
def fault? (plan : FaultPlan) (group call : Nat) : Option Fault :=
  (plan.strikes.filter fun s => s.group = group ∧ s.first ≤ call ∧ call ≤ s.last).getLast?.map
    Strike.fault

/-- Whether an insert is lost after so many earlier ones of its group. -/
def loses (plan : FaultPlan) (inserts : Nat) : Bool :=
  plan.keepInserts.any fun n => n ≤ inserts

/-- How a call ends without the table below, given the calls of its group
before it; none if the call is passed on. -/
def intercept (plan : FaultPlan) (group : Nat) (tally : Tally) (call : Call) : Option Outcome :=
  if call.key?.isNone then .none
  else
    match plan.fault? group tally.calls with
    | some fault => some (fault.outcome call)
    | .none =>
      if call.isInsert && plan.loses tally.inserts then some (.ok (.changed true)) else .none

end FaultPlan

/-- A table of states `σ` together with what was counted so far. -/
structure Faulty (σ : Type) where
  below : σ
  tallies : Std.ExtTreeMap Nat Tally

namespace Faulty

variable {σ : Type}

/-- A table before the first counted call. -/
def ofTable (below : σ) : Faulty σ := ⟨below, ∅⟩

/-- The calls of a group so far. -/
def tally (s : Faulty σ) (group : Nat) : Tally := s.tallies[group]?.getD ⟨0, 0⟩

/-- Counts a call of a group, if it concerns a key. -/
def count (s : Faulty σ) (group : Nat) (call : Call) : Faulty σ :=
  if call.key?.isNone then s
  else
    let tally := s.tally group
    let tally := ⟨tally.calls + 1, if call.isInsert then tally.inserts + 1 else tally.inserts⟩
    { s with tallies := s.tallies.insert group tally }

/-- The table that goes wrong as planned and otherwise does what the table
below it does. -/
def table (below : Table σ) (plan : FaultPlan) (groupOf : Call → Nat) : Table (Faulty σ) where
  answer call s :=
    let group := groupOf call
    let counted := s.count group call
    match plan.intercept group (s.tally group) call with
    | some outcome => (outcome, counted)
    | none =>
      let (outcome, below) := below.answer call s.below
      (outcome, { counted with below := below })

end Faulty

end TableProbe
