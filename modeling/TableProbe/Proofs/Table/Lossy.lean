import TableProbe.Proofs.Table.Correct
import TableProbe.Proofs.Table.Filled
import TableProbe.Table.Faulty

/-!
# Tables that lose inserts

A lossy table keeps the first few inserts of a thread and pretends to take the
others; in all else it is correct.  Of keys that a thread inserts in their
order it then holds only the first few, so a window of keys that are thought to
be there ends too late (`Contents.Marks.lossy_insert`).  A faulty table that is
told to lose inserts is one (`Host.Correct.loses`).
-/

namespace TableProbe

variable {σ : Type}

namespace Contents

/-- What a table answers that keeps so many inserts, when a thread made some
before, and its contents afterwards. -/
def lossyAnswer (keep made : Nat) (call : Call) (c : Contents) : Answer × Contents :=
  if call.isInsert ∧ keep ≤ made then (.changed true, c) else answer call c

variable {keep made : Nat} {call : Call} {c : Contents} {space : KeySpace} {thread : UInt64}
  {first last : Nat} {value : Bytes}

theorem lossyAnswer_of_lost (inserts : call.isInsert = true) (lost : keep ≤ made) :
    lossyAnswer keep made call c = (.changed true, c) := if_pos ⟨inserts, lost⟩

theorem lossyAnswer_of_kept (kept : made < keep) : lossyAnswer keep made call c = answer call c :=
  if_neg fun lost => Nat.not_le.2 kept lost.2

theorem lossyAnswer_of_not_insert (other : call.isInsert = false) :
    lossyAnswer keep made call c = answer call c :=
  if_neg fun lost => by rw [other] at lost; cases lost.1

/-- A thread that inserts its next key is told that this was done, but the
window in the table grows only as long as inserts are kept. -/
theorem Marks.lossy_insert (marks : c.Marks space thread first (min keep last))
    (ordered : first ≤ last) (fits : space.numberAt thread last < 2 ^ 64) :
    (lossyAnswer keep last (.insert (space.keyAt thread last) value) c).1.holds = true ∧
      (lossyAnswer keep last (.insert (space.keyAt thread last) value) c).2.Marks space thread
        first (min keep (last + 1)) := by
  rcases Nat.lt_or_ge last keep with kept | lost
  · rw [lossyAnswer_of_kept kept, Nat.min_eq_right kept]
    rw [Nat.min_eq_right (Nat.le_of_lt kept)] at marks
    exact ⟨marks.holds_insert fits, marks.insert ordered fits⟩
  · rw [lossyAnswer_of_lost rfl lost, Nat.min_eq_left (Nat.le_succ_of_le lost)]
    rw [Nat.min_eq_left lost] at marks
    exact ⟨rfl, marks⟩

end Contents

/-- For one thread the host is a table that keeps so many inserts and loses the
others; `made` counts the inserts that the thread made. -/
structure Host.Loses (host : Host σ) (thread : UInt64) (keep : Nat) (ready : σ → Prop)
    (contents : σ → Contents) (made : σ → Nat) : Prop where
  answers : ∀ {call s}, ready s → (host.answer (.worker thread) call s).1.outcome =
    .ok (Contents.lossyAnswer keep (made s) call (contents s)).1
  leaves : ∀ {call s}, ready s → contents (host.answer (.worker thread) call s).2 =
    (Contents.lossyAnswer keep (made s) call (contents s)).2
  counts : ∀ {call s}, ready s → made (host.answer (.worker thread) call s).2 =
    if call.isInsert then made s + 1 else made s
  stays : ∀ {call s}, ready s → ready (host.answer (.worker thread) call s).2

/-- A reply to a call of the thread, if there was an answer in it. -/
theorem Host.Loses.answer_eq {host : Host σ} {thread : UInt64} {keep : Nat} {ready : σ → Prop}
    {contents : σ → Contents} {made : σ → Nat} {call : Call} {s : σ} {reply : Reply}
    {answer : Answer} (loses : host.Loses thread keep ready contents made) (fine : ready s)
    (outcome : reply.outcome = (host.machine (.worker thread) call s).1)
    (answered : reply.outcome = .ok answer) :
    answer = (Contents.lossyAnswer keep (made s) call (contents s)).1 :=
  Except.ok.inj (answered.symm.trans (outcome.trans (loses.answers fine)))

/-! ## Faulty tables -/

theorem Faulty.inserts_count (s : Faulty σ) (group : Nat) (call : Call) :
    ((s.count group call).tally group).inserts =
      if call.isInsert then (s.tally group).inserts + 1 else (s.tally group).inserts := by
  cases call with
  | init => rfl
  | insert key value => simp [count, tally, Call.key?, Call.isInsert]
  | read key => simp [count, tally, Call.key?, Call.isInsert]
  | update key value => simp [count, tally, Call.key?, Call.isInsert]
  | erase key => simp [count, tally, Call.key?, Call.isInsert]

theorem Faulty.below_count (s : Faulty σ) (group : Nat) (call : Call) :
    (s.count group call).below = s.below := by
  unfold count
  split <;> rfl

/-- With this plan each insert of a thread after the first ones is answered
with yes, without asking the table; no other call is touched. -/
theorem FaultPlan.intercept_keepInserts (keep group : Nat) (tally : Tally) (call : Call) :
    FaultPlan.intercept ⟨some keep, []⟩ group tally call =
      if call.isInsert ∧ keep ≤ tally.inserts then some (.ok (.changed true)) else .none := by
  cases call with
  | init => rfl
  | insert key value => simp [intercept, fault?, loses, Call.key?, Call.isInsert]
  | read key => rfl
  | update key value => rfl
  | erase key => rfl

/-- A correct table that is told to keep so many inserts does so. -/
theorem Host.Correct.loses {below : Table σ} {micros : UInt64} {clock : Nat → Nat}
    {ready : σ → Prop} {contents : σ → Contents}
    (correct : (Host.ofTable below micros clock).Correct ready contents) (thread : UInt64)
    (keep group : Nat) :
    (Host.ofTable (Faulty.table below ⟨some keep, []⟩ fun _ => group) micros clock).Loses thread
      keep (fun s => ready s.below) (fun s => contents s.below)
      (fun s => (s.tally group).inserts) := by
  have step (call : Call) (s : Faulty σ) (fine : ready s.below) :
      let after := (Faulty.table below ⟨some keep, []⟩ fun _ => group).answer call s
      let expected := Contents.lossyAnswer keep (s.tally group).inserts call (contents s.below)
      after.1 = .ok expected.1 ∧ contents after.2.below = expected.2 ∧
        (after.2.tally group).inserts = (if call.isInsert then (s.tally group).inserts + 1
          else (s.tally group).inserts) ∧ ready after.2.below := by
    have counted := s.inserts_count group call
    simp only [Faulty.table, FaultPlan.intercept_keepInserts, Contents.lossyAnswer]
    by_cases lost : call.isInsert ∧ keep ≤ (s.tally group).inserts
    · rw [if_pos lost, if_pos lost]
      exact ⟨rfl, congrArg contents (s.below_count group call), counted,
        (s.below_count group call).symm ▸ fine⟩
    · rw [if_neg lost, if_neg lost]
      obtain ⟨outcome, after⟩ := correct.agrees (.worker thread) call fine
      have stays :
          ready ((Host.ofTable below micros clock).answer (.worker thread) call s.below).2 :=
        correct.stays fine
      exact ⟨outcome, after, counted, stays⟩
  exact ⟨fun fine => (step _ _ fine).1, fun fine => (step _ _ fine).2.1,
    fun fine => (step _ _ fine).2.2.1, fun fine => (step _ _ fine).2.2.2⟩

end TableProbe
