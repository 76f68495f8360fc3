import TableProbe.Proofs.Script.Alike
import TableProbe.Proofs.Script.Task

/-!
# Paired tasks

Two tasks of one thread are paired if from related states their scripts are
alike: they do the same deeds, fail with the same failure or come to related
results, and leave related states.  Pairs are put together as tasks are
(`Task.Paired.bind`), so a task is paired with itself if each of its parts is.
-/

namespace TableProbe.Task

variable {σ α β γ δ : Type} {who : Actor} {own : Call → Prop} {P : σ → σ → Prop}
  {Q : α → β → Prop} {R : γ → δ → Prop}

/-- Both ends are regular with related results, or they are the same failure. -/
inductive EndsAlike (Q : α → β → Prop) :
    Except (Failure WorkError) α → Except (Failure WorkError) β → Prop
  | ok {a : α} {b : β} : Q a b → EndsAlike Q (.ok a) (.ok b)
  | error (e : Failure WorkError) : EndsAlike Q (.error e) (.error e)

/-- From related states the tasks do the same and end alike. -/
def Paired (who : Actor) (own : Call → Prop) (P : σ → σ → Prop) (Q : α → β → Prop)
    (task : Task σ α) (task' : Task σ β) : Prop :=
  ∀ s s', P s s' → Script.Alike who own (fun x x' => EndsAlike Q x.1 x'.1 ∧ P x.2 x'.2)
    (task.start s) (task'.start s')

namespace Paired

theorem pure {a : α} {b : β} (related : Q a b) :
    Paired who own P Q (Pure.pure a) (Pure.pure b) := by
  intro s s' states
  exact .done ⟨.ok related, states⟩

/-- Tasks are paired part by part: the second parts start from related states
with related results, and if the first parts fail then both fail alike. -/
theorem bind {task : Task σ α} {task' : Task σ β} {next : α → Task σ γ} {next' : β → Task σ δ}
    (head : Paired who own P Q task task')
    (tail : ∀ a b, Q a b → Paired who own P R (next a) (next' b)) :
    Paired who own P R (task >>= next) (task' >>= next') := by
  intro s s' states
  rw [start_bind, start_bind]
  apply (head s s' states).bind
  intro x x' related
  rcases x with ⟨r, t⟩
  rcases x' with ⟨r', t'⟩
  rcases related with ⟨ends, states'⟩
  cases ends with
  | ok results => exact tail _ _ results t t' states'
  | error e => exact .done ⟨.error e, states'⟩

theorem throw (e : Failure WorkError) :
    Paired who own P Q (MonadExcept.throw e) (MonadExcept.throw e) := by
  intro s s' states
  exact .done ⟨.error e, states⟩

theorem get : Paired who own P P (MonadState.get) (MonadState.get) := by
  intro s s' states
  exact .done ⟨.ok states, states⟩

theorem set {s s' : σ} (states : P s s') :
    Paired who own P (fun _ _ => True) (MonadStateOf.set s) (MonadStateOf.set s') := by
  intro _ _ _
  exact .done ⟨.ok trivial, states⟩

theorem modify {f f' : σ → σ} (keeps : ∀ s s', P s s' → P (f s) (f' s')) :
    Paired who own P (fun _ _ => True) (MonadState.modifyGet fun s => ((), f s))
      (MonadState.modifyGet fun s => ((), f' s)) := by
  intro s s' states
  exact .done ⟨.ok trivial, keeps s s' states⟩

theorem compute (r : Except Crash α) :
    Paired who own P (fun a b => r = .ok a ∧ b = a) (Task.compute r) (Task.compute r) := by
  intro s s' states
  cases r with
  | ok a => exact .done ⟨.ok ⟨rfl, rfl⟩, states⟩
  | error c => exact .done ⟨.error _, states⟩

/-- The replies to paired calls have the same outcome, but may have taken
different times. -/
theorem call {c : Call} (mine : own c) :
    Paired who own P (fun r r' : Reply => r.outcome = r'.outcome) (perform who (.call c))
      (perform who (.call c)) := by
  intro s s' states
  exact .call mine fun r r' same => .done ⟨.ok same, states⟩

theorem note (n : Note) :
    Paired who own P (fun _ _ : Unit => True) (perform who (.note n))
      (perform who (.note n)) := by
  intro s s' states
  exact .note (.done ⟨.ok trivial, states⟩)

theorem answerOf {outcome outcome' : Outcome} (same : outcome = outcome') :
    Paired who own P Eq (Task.answerOf outcome) (Task.answerOf outcome') := by
  intro s s' states
  subst same
  cases outcome with
  | ok answer => exact .done ⟨.ok rfl, states⟩
  | error f => exact .done ⟨.error _, states⟩

/-- A report is the same on both sides and the end of both tasks, so nothing is
asked of what would come after it. -/
theorem report (n : Note) (e : WorkError) :
    Paired who own P Q (Task.report who n e) (Task.report who n e) := by
  intro s s' states
  exact .note (.alarm (.done ⟨.error _, states⟩))

end Paired

end TableProbe.Task
