import TableProbe.Proofs.Script.Paired
import TableProbe.Proofs.Table.Shares
import TableProbe.Proofs.Worker.Plan
import TableProbe.Proofs.Worker.Replay
import TableProbe.Worker.Fill

/-!
# Workers are paired with themselves

What a worker does depends on the outcomes of its calls, but not on how long
they take; and it only calls for keys of its own thread, those near the end of
the range included.
-/

namespace TableProbe.Worker

variable {space : KeySpace} {thread : UInt64}

/-- The keys that a thread makes are its own, so a call about one of them is
within its limits. -/
theorem owns_of_key (member : thread < space.threads) {seq : UInt64} {key : Bytes} {call : Call}
    (hkey : space.key seq thread = .ok key) (hcall : call.key? = some key) :
    space.Owns (.worker thread) call := by
  obtain ⟨fits, -, rfl⟩ := space.key_eq_ok_iff.1 hkey
  exact ⟨_, hcall, space.ownerOf_keyAt fits member⟩

/-- Keys and values do not depend on times, so filling makes the same inserts
on both sides. -/
theorem paired_fillFrom (member : thread < space.threads) (count : Nat) (seq : UInt64) :
    Task.Paired (.worker thread) (space.Owns (.worker thread)) Eq (fun _ _ => True)
      (fillFrom space thread count seq) (fillFrom space thread count seq) := by
  induction count generalizing seq with
  | zero => exact .pure trivial
  | succ count ih =>
    unfold fillFrom
    apply Task.Paired.bind (.compute _)
    intro key key' computed
    rcases computed with ⟨hkey, rfl⟩
    apply Task.Paired.bind .get
    intro values values' same
    subst same
    apply Task.Paired.bind (.compute _)
    intro drawn drawn' computed
    rcases computed with ⟨-, rfl⟩
    apply Task.Paired.bind (.set rfl)
    intro _ _ _
    apply Task.Paired.bind (.call (owns_of_key member hkey rfl))
    intro reply reply' outcome
    apply Task.Paired.bind (.answerOf outcome)
    intro answer answer' same
    subst same
    split
    · exact ih (seq + 1)
    · apply Task.Paired.bind (Q := fun _ _ => True) (.report _ _)
      intro _ _ _
      exact ih (seq + 1)

/-! ## The mix -/

/-- Workers of a thread plan calls within limits only. -/
def PlansWithin (own : Call → Prop) (space : KeySpace) (thread : UInt64) : Prop :=
  ∀ ⦃w : Worker⦄ ⦃op slot ops : UInt64⦄ ⦃kind : OpKind⦄ ⦃probe : Probe⦄, w.thread = thread →
    w.keys = space → w.plan op slot kind ops = .ok probe → own probe.call

/-- All calls that a worker plans are about keys of its own thread. -/
theorem owns_of_plan (member : thread < space.threads) :
    PlansWithin (space.Owns (.worker thread)) space thread := by
  intro w op slot ops kind probe hthread hkeys plan
  subst hthread hkeys
  cases planned_of_plan plan with
  | read _ _ hkey => exact owns_of_key member hkey rfl
  | insert _ hkey _ => exact owns_of_key member hkey rfl
  | erase _ hkey => exact owns_of_key member hkey rfl
  | update _ _ hkey _ => exact owns_of_key member hkey rfl
  | overwrite _ _ hkey _ => exact owns_of_key member hkey rfl

/-- Workers of one thread that differ in what they recorded only. -/
structure Peers (S : Option Histogram → Option Histogram → Prop) (space : KeySpace)
    (thread : UInt64) (w w' : Worker) : Prop where
  thread : w.thread = thread
  keys : w.keys = space
  same : ∃ samples, w' = { w with samples } ∧ S w.samples samples

/-- Recording any two latencies keeps what was recorded related. -/
def KeptByRecord (S : Option Histogram → Option Histogram → Prop) : Prop :=
  ∀ a b m n, S a b → S (a.map fun h => h.record m) (b.map fun h => h.record n)

variable {own : Call → Prop} {S : Option Histogram → Option Histogram → Prop}

theorem paired_check (op : UInt64) (kind : OpKind) (probe : Probe) (got : Bool) :
    Task.Paired (.worker thread) own (Peers S space thread) (fun _ _ => True)
      (check op kind probe got) (check op kind probe got) := by
  unfold check
  apply Task.Paired.bind .get
  intro w w' peers
  rcases peers with ⟨rfl, -, samples, rfl, -⟩
  split
  · exact .pure trivial
  · exact .report _ _

theorem paired_advance (move : Move) :
    Task.Paired (.worker thread) own (Peers S space thread) (fun _ _ => True)
      (advance move) (advance move) := by
  unfold advance
  apply Task.Paired.bind .get
  intro w w' peers
  rcases peers with ⟨hthread, hkeys, samples, rfl, related⟩
  apply Task.Paired.bind (.compute _)
  intro window window' computed
  rcases computed with ⟨-, rfl⟩
  apply Task.Paired.bind (.set ⟨hthread, hkeys, samples, rfl, related⟩)
  intro _ _ _
  split
  · exact .pure trivial
  · exact .throw _

/-- A worker does not look at the latencies that it recorded.  So two workers
that differ in these only plan the same call, make the same of its answer, and
still differ in nothing else. -/
theorem paired_step (within : PlansWithin own space thread) (kept : KeptByRecord S)
    (op slot : UInt64) (kind : OpKind) (ops : UInt64) :
    Task.Paired (.worker thread) own (Peers S space thread) (fun _ _ => True)
      (step op slot kind ops) (step op slot kind ops) := by
  unfold step
  apply Task.Paired.bind .get
  intro w w' peers
  rcases peers with ⟨hthread, hkeys, samples, rfl, related⟩
  have planned : ({ w with samples } : Worker).plan op slot kind ops = w.plan op slot kind ops :=
    rfl
  rw [planned]
  apply Task.Paired.bind (.compute _)
  intro probe probe' computed
  rcases computed with ⟨plan, rfl⟩
  apply Task.Paired.bind (.set ⟨hthread, hkeys, samples, rfl, related⟩)
  intro _ _ _
  dsimp only
  rw [hthread]
  apply Task.Paired.bind (.call (within hthread hkeys plan))
  intro reply reply' outcome
  apply Task.Paired.bind (.answerOf outcome)
  intro answer answer' same
  subst same
  have recorded : ∀ v v', Peers S space thread v v' →
      Peers S space thread (v.sample reply.micros) (v'.sample reply'.micros) := by
    intro v v' peers
    rcases peers with ⟨hthread, hkeys, samples, rfl, related⟩
    exact ⟨hthread, hkeys, _, rfl, kept _ _ _ _ related⟩
  apply Task.Paired.bind (.modify recorded)
  intro _ _ _
  apply Task.Paired.bind (paired_check op kind probe' answer.holds)
  intro _ _ _
  exact paired_advance probe'.move

theorem paired_steps (within : PlansWithin own space thread) (kept : KeptByRecord S)
    (schedule : Schedule) (ops : UInt64) (op n : Nat) :
    Task.Paired (.worker thread) own (Peers S space thread) (fun _ _ => True)
      (steps schedule ops op n) (steps schedule ops op n) := by
  induction n generalizing op with
  | zero => exact .pure trivial
  | succ n ih =>
    unfold steps
    apply Task.Paired.bind (paired_step within kept _ _ _ ops)
    intro _ _ _
    exact ih (op + 1)

theorem paired_replay (within : PlansWithin own space thread) (kept : KeptByRecord S)
    (schedule : Schedule) (ops : UInt64) :
    Task.Paired (.worker thread) own (Peers S space thread) (fun _ _ => True)
      (replay schedule ops) (replay schedule ops) := by
  rw [replay_eq_steps]
  exact paired_steps within kept schedule ops 0 ops.toNat

end TableProbe.Worker
