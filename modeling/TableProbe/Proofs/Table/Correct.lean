import TableProbe.Proofs.Table.Shares
import TableProbe.Table.Backend

/-!
# Correct tables

A table is correct if, once it is ready, each call ends as a perfect table
would end it, and leaves what a perfect table would leave.  All backends are;
and a correct table can be made to go wrong in any way that depends on each
thread's own calls.
-/

namespace TableProbe

variable {σ φ : Type}

/-- The host does what it should, as long as it is ready. -/
structure Host.Correct (host : Host σ) (ready : σ → Prop) (contents : σ → Contents) : Prop where
  agrees : ∀ who call {s}, ready s →
    (contents s).Agrees call (host.answer who call s).1.outcome
      (contents (host.answer who call s).2)
  stays : ∀ {who call s}, ready s → ready (host.answer who call s).2

/-- The perfect table is correct. -/
theorem Contents.correct (micros : UInt64) (clock : Nat → Nat) :
    (Host.ofTable Contents.table micros clock).Correct (fun _ => True) id where
  agrees _ _ _ _ := ⟨rfl, rfl⟩
  stays _ := trivial

/-- Every backend is correct once it is ready.  For three of them this is
always so; the fourth one has to be created by some call that is not a read. -/
theorem Store.correct (micros : UInt64) (clock : Nat → Nat) :
    (Host.ofTable Store.table micros clock).Correct (fun s => s.isReady = true) Store.contents
      where
  agrees _ _ _ ready := Store.answer_agrees (.inl ready)
  stays ready := Store.isReady_answer (.inl ready)

/-- The host whose calls go wrong as the faults of each thread have it. -/
def Host.withFaults (host : Host σ) (faults : Faults φ) : Host (σ × (UInt64 → φ)) where
  answer who call s :=
    match who with
    | .main =>
      let (reply, below) := host.answer .main call s.1
      (reply, below, s.2)
    | .worker t =>
      match faults t (s.2 t) call with
      | .strike outcome next => (⟨outcome, 0⟩, s.1, Function.update s.2 t next)
      | .pass report =>
        let (reply, below) := host.answer (.worker t) call s.1
        match reply.outcome with
        | .ok answer =>
          (⟨(report answer).1, reply.micros⟩, below, Function.update s.2 t (report answer).2)
        | .error _ => (reply, below, s.2)
  clock := host.clock

namespace Host.Correct

variable {host : Host σ} {ready : σ → Prop} {contents : σ → Contents}

/-- A correct host answers as a perfect table does, and its contents go along
with those of the perfect one for any number of calls. -/
theorem follows_perfect (correct : host.Correct ready contents) :
    host.machine.Follows Contents.machine contents ready where
  outcome fine := (correct.agrees _ _ fine).1
  state fine := (correct.agrees _ _ fine).2
  stays fine := correct.stays fine

/-- A correct host is one in which nothing goes wrong. -/
theorem follows (correct : host.Correct ready contents) :
    host.machine.Follows Faults.none.machine (fun s => (contents s, fun _ => ())) ready where
  outcome {who call s} fine := by
    cases who with
    | main => exact (correct.agrees _ call fine).1
    | worker t => exact (correct.agrees _ call fine).1
  state {who call s} fine := by
    cases who with
    | main => exact congrArg (Prod.mk · _) (correct.agrees _ call fine).2
    | worker t => exact congrArg (Prod.mk · _) (correct.agrees _ call fine).2
  stays fine := correct.stays fine

/-- A correct host that is made to go wrong goes wrong in just that way. -/
theorem follows_withFaults (correct : host.Correct ready contents) (faults : Faults φ) :
    (host.withFaults faults).machine.Follows faults.machine (fun s => (contents s.1, s.2))
      (fun s => ready s.1) := by
  have step (who : Actor) (call : Call) (s : σ × (UInt64 → φ)) (fine : ready s.1) :
      ((host.withFaults faults).answer who call s).1.outcome =
          (faults.machine who call (contents s.1, s.2)).1 ∧
        (contents ((host.withFaults faults).answer who call s).2.1,
            ((host.withFaults faults).answer who call s).2.2) =
          (faults.machine who call (contents s.1, s.2)).2 ∧
        ready ((host.withFaults faults).answer who call s).2.1 := by
    cases who with
    | main =>
      obtain ⟨outcome, after⟩ := correct.agrees .main call fine
      exact ⟨outcome, congrArg (Prod.mk · _) after, correct.stays fine⟩
    | worker t =>
      obtain ⟨outcome, after⟩ := correct.agrees (.worker t) call fine
      simp only [withFaults, Faults.machine, Faults.answer]
      cases faults t (s.2 t) call with
      | strike outcome next => exact ⟨rfl, rfl, fine⟩
      | pass report =>
        dsimp only
        rw [outcome]
        exact ⟨rfl, congrArg (Prod.mk · _) after, correct.stays fine⟩
  exact ⟨fun fine => (step _ _ _ fine).1, fun fine => (step _ _ _ fine).2.1,
    fun fine => (step _ _ _ fine).2.2⟩

end Host.Correct

end TableProbe
