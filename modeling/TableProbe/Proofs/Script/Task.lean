import TableProbe.Proofs.Script.Runs
import TableProbe.Script.Task

/-!
# Starting a task

The script of a task from a state, part by part: what its steps do to the
state, and how one task follows another unless it fails.  So a way through two
tasks is one through the first that ends with a failure, or ways through both
(`Task.runs_bind_iff`).
-/

namespace TableProbe.Task

variable {σ α β : Type} {s : σ}

@[simp] theorem start_pure (a : α) : (pure a : Task σ α).start s = .done (.ok a, s) := rfl

@[simp] theorem start_get : (get : Task σ σ).start s = .done (.ok s, s) := rfl

@[simp] theorem start_set (s' : σ) : (set s' : Task σ PUnit).start s = .done (.ok ⟨⟩, s') := rfl

@[simp] theorem start_perform (who : Actor) (deed : Deed) :
    (perform who deed : Task σ deed.Result).start s = .act who deed fun r => .done (.ok r, s) :=
  rfl

@[simp] theorem start_compute (r : Except Crash α) :
    (compute r : Task σ α).start s = .done (Failure.ofCrash r, s) := rfl

@[simp] theorem start_answerOf_ok (answer : Answer) :
    (answerOf (.ok answer) : Task σ Answer).start s = .done (.ok answer, s) := rfl

/-- A task follows another one in the state that this leaves, unless it failed.
Then its failure is the end of both, and the state is kept. -/
theorem start_bind (task : Task σ α) (next : α → Task σ β) :
    (task >>= next).start s = task.start s >>= fun end_ =>
      match end_ with
      | (.ok a, s') => (next a).start s'
      | (.error e, s') => .done (.error e, s') := by
  refine congrArg (task.start s >>= ·) (funext fun end_ => ?_)
  rcases end_ with ⟨_ | _, _⟩
  · rfl
  · rfl

/-- Two tasks one after the other fail with the first one, in the state that it
left, or go on with the second one from there. -/
theorem runs_bind_iff {task : Task σ α} {next : α → Task σ β} {events : List Event}
    {r : Except (Failure WorkError) β} {s' : σ} :
    ((task >>= next).start s).Runs events (r, s') ↔
      (∃ e, r = .error e ∧ (task.start s).Runs events (.error e, s')) ∨
        ∃ a mid first later, events = first ++ later ∧ (task.start s).Runs first (.ok a, mid) ∧
          ((next a).start mid).Runs later (r, s') := by
  rw [start_bind, Script.runs_bind_iff]
  constructor
  · rintro ⟨first, ⟨r₁, mid⟩, later, rfl, head, tail⟩
    cases r₁ with
    | error e =>
      obtain ⟨rfl, same⟩ := Script.runs_done_iff.1 tail
      cases same
      exact .inl ⟨e, rfl, by rwa [List.append_nil]⟩
    | ok a => exact .inr ⟨a, mid, first, later, rfl, head, tail⟩
  · rintro (⟨e, rfl, failed⟩ | ⟨a, mid, first, later, rfl, head, tail⟩)
    · exact ⟨events, (.error e, s'), [], (List.append_nil _).symm, failed, .done⟩
    · exact ⟨first, (.ok a, mid), later, rfl, head, tail⟩

/-- A play of two tasks goes on with the second one where the first one
succeeded. -/
theorem play_bind_of_ok {τ : Type} (host : Host τ) (policy : AlarmPolicy) {task : Task σ α}
    (next : α → Task σ β) {a : α} {s mid : σ} {x : τ}
    (ok : (host.play policy (task.start s) x).result? = some (.ok a, mid)) :
    ∃ y, host.play policy ((task >>= next).start s) x = host.playAfter policy ((next a).start mid)
      (host.play policy (task.start s) x).events.reverse y := by
  rw [start_bind, Host.play, Host.play, Host.playAfter_bind]
  rw [Host.play] at ok
  generalize host.playAfter policy (task.start s) [] x = played at ok ⊢
  rcases played with ⟨result?, events, y⟩
  obtain rfl : result? = some (.ok a, mid) := ok
  exact ⟨y, rfl⟩

end TableProbe.Task
