import TableProbe.Proofs.Script.Task
import TableProbe.Worker.Fill

/-!
# What filling can do

A worker that fills the table makes one insert after another, until all are
done or something is in the way.  `Worker.Filling` lists the ways in which this
can go, insert by insert; `Worker.filling_of_runs` says that there are no
others, whatever the table replies.
-/

namespace TableProbe.Worker

variable {keys : KeySpace} {thread : UInt64}

/-- What happens with one insert: its key is made before its value is drawn,
both before the call, and the value is used up whatever the answer is. -/
theorem start_fillFrom_succ (keys : KeySpace) (thread : UInt64) (count : Nat) (seq : UInt64)
    (values : ValueSource) :
    (fillFrom keys thread (count + 1) seq).start values =
      match keys.key seq thread, values.next with
      | .error c, _ => .done (.error (.crash c), values)
      | .ok _, .error c => .done (.error (.crash c), values)
      | .ok key, .ok (value, rest) =>
        .act (.worker thread) (.call (.insert key value)) fun reply =>
          match reply.outcome with
          | .error f => .done (.error (f.map .table), rest)
          | .ok answer =>
            if answer.holds then (fillFrom keys thread count (seq + 1)).start rest
            else
              (do
                Task.report (.worker thread) (.fillRefused thread seq) (.fillRefused thread seq)
                fillFrom keys thread count (seq + 1) : Task ValueSource Unit).start rest := by
  rw [fillFrom]
  rw [Task.start_bind, Task.start_compute, Script.done_bind]
  cases keys.key seq thread with
  | error c => rfl
  | ok key =>
    dsimp only [Failure.ofCrash_ok]
    rw [Task.start_bind, Task.start_get, Script.done_bind]
    dsimp only
    rw [Task.start_bind, Task.start_compute, Script.done_bind]
    cases values.next with
    | error c => rfl
    | ok drawn =>
      dsimp only [Failure.ofCrash_ok]
      rw [Task.start_bind, Task.start_set, Script.done_bind]
      dsimp only
      rw [Task.start_bind, Task.start_perform, Script.act_bind]
      refine congrArg (Script.act (.worker thread) _) (funext fun reply => ?_)
      rw [Script.done_bind]
      dsimp only
      rw [Task.start_bind]
      cases reply.outcome with
      | error f => rfl
      | ok answer =>
        rw [Task.start_answerOf_ok, Script.done_bind]
        dsimp only
        by_cases hit : answer.holds = true
        · rw [if_pos hit, if_pos hit]
        · rw [if_neg hit, if_neg hit]

/-- The ways in which a number of inserts from a sequence number on can go:
what is done, with what result, and which source of values is left. -/
inductive Filling (keys : KeySpace) (thread : UInt64) : Nat → UInt64 → ValueSource → List Event →
    Except (Failure WorkError) Unit → ValueSource → Prop
  | finished {seq : UInt64} {values : ValueSource} :
    Filling keys thread 0 seq values [] (.ok ()) values
  | keyless {count : Nat} {seq : UInt64} {values : ValueSource} {c : Crash} :
      keys.key seq thread = .error c →
        Filling keys thread (count + 1) seq values [] (.error (.crash c)) values
  | valueless {count : Nat} {seq : UInt64} {values : ValueSource} {c : Crash} :
      values.next = .error c →
        Filling keys thread (count + 1) seq values [] (.error (.crash c)) values
  | refused {count : Nat} {seq : UInt64} {values rest : ValueSource} {key value : Bytes}
      {reply : Reply} {f : Failure TableError} :
      keys.key seq thread = .ok key → values.next = .ok (value, rest) → reply.outcome = .error f →
      Filling keys thread (count + 1) seq values
        [⟨.worker thread, .call (.insert key value), reply⟩] (.error (f.map .table)) rest
  | mismatched {count : Nat} {seq : UInt64} {values rest : ValueSource} {key value : Bytes}
      {reply : Reply} {answer : Answer} :
      keys.key seq thread = .ok key → values.next = .ok (value, rest) →
        reply.outcome = .ok answer →
      answer.holds = false →
      Filling keys thread (count + 1) seq values
        [⟨.worker thread, .call (.insert key value), reply⟩,
          ⟨.worker thread, .note (.fillRefused thread seq), ()⟩,
          ⟨.worker thread, .alarm (.fillRefused thread seq), ()⟩]
        (.error (.error (.fillRefused thread seq))) rest
  | added {count : Nat} {seq : UInt64} {values rest values' : ValueSource} {key value : Bytes}
      {reply : Reply} {answer : Answer} {later : List Event}
        {r : Except (Failure WorkError) Unit} :
      keys.key seq thread = .ok key → values.next = .ok (value, rest) →
        reply.outcome = .ok answer →
      answer.holds = true → Filling keys thread count (seq + 1) rest later r values' →
      Filling keys thread (count + 1) seq values
        (⟨.worker thread, .call (.insert key value), reply⟩ :: later) r values'

/-- Every way to make some inserts is one of these.  Later proofs take filling
apart by this lemma, and never look at how it is written. -/
theorem filling_of_runs {count : Nat} {seq : UInt64} {values values' : ValueSource}
    {events : List Event} {r : Except (Failure WorkError) Unit}
    (runs : ((fillFrom keys thread count seq).start values).Runs events (r, values')) :
    Filling keys thread count seq values events r values' := by
  induction count generalizing seq values events with
  | zero =>
    obtain ⟨rfl, same⟩ := Script.runs_done_iff.1 runs
    cases same
    exact .finished
  | succ count ih =>
    rw [start_fillFrom_succ] at runs
    cases hkey : keys.key seq thread with
    | error c =>
      rw [hkey] at runs
      cases runs
      exact .keyless hkey
    | ok key =>
      cases hvalue : values.next with
      | error c =>
        rw [hkey, hvalue] at runs
        cases runs
        exact .valueless hvalue
      | ok drawn =>
        rw [hkey, hvalue] at runs
        obtain ⟨reply, later, rfl, after⟩ := Script.runs_act_iff.1 runs
        cases outcome : Reply.outcome reply with
        | error f =>
          rw [outcome] at after
          cases after
          exact .refused hkey hvalue outcome
        | ok answer =>
          simp only [outcome] at after
          by_cases hit : answer.holds = true
          · rw [if_pos hit] at after
            exact .added hkey hvalue outcome hit (ih after)
          · rw [if_neg hit] at after
            cases after with
            | act after =>
              cases after with
              | act after =>
                cases after
                exact .mismatched hkey hvalue outcome (Bool.eq_false_iff.2 hit)

end TableProbe.Worker
