import TableProbe.Proofs.Worker.Filling
import TableProbe.Proofs.Worker.Replay
import TableProbe.Proofs.Worker.Step

/-!
# When a worker raises the alarm

A worker that fails stops there.  It raises the alarm once if the table gave an
answer that it should not have given, and never if the table failed or the
worker crashed.  `Worker.Judged` says so of the events of a worker and of its
result, for filling (`Worker.judged_of_filling`) and for replaying
(`Worker.judged_of_steps`).
-/

namespace TableProbe

/-- The event is a call that was answered but took no effect. -/
def Event.Denied (e : Event) : Prop :=
  ∃ call answer micros, e.call? = some (call, ⟨.ok answer, micros⟩) ∧ answer.holds = false

/-- The rest of a way through two scripts, if the way through the first is
known. -/
theorem Script.Runs.rest {α β : Type} {s : Script α} {f : α → Script β} {first later : List Event}
    {a : α} {b : β} (head : s.Runs first a) (runs : (s >>= f).Runs (first ++ later) b) :
    (f a).Runs later b := by
  induction head with
  | done => exact runs
  | act _ ih =>
    obtain ⟨_, _, same, tail⟩ := runs_act_iff.1 runs
    cases same
    exact ih tail

namespace Worker

/-- The error of a failed worker that is about the answers of the table.  One
that the table reported itself is not. -/
def blamed? {α : Type} : Except (Failure WorkError) α → Option WorkError
  | .error (.error (.table _)) => none
  | .error (.error e) => some e
  | _ => none

/-- A call that failed is reported as such; it is not the answers of the table
that are to blame. -/
@[simp] theorem blamed?_refused {α : Type} (f : Failure TableError) :
    blamed? (.error (f.map .table) : Except (Failure WorkError) α) = none := by
  cases f with
  | error e => rfl
  | crash c => rfl

/-- What the events of a worker say about its result: the alarm is raised about
the answers of the table only, if these were a surprise; and a call that failed
was the end. -/
structure Judged {α : Type} (surprised : Prop) (events : List Event)
    (r : Except (Failure WorkError) α) : Prop where
  alarms : events.filterMap Event.alarm? = (blamed? r).toList
  surprised_iff : (blamed? r).isSome ↔ surprised
  failed : ∀ e ∈ events, ∀ call f micros, e.call? = some (call, ⟨.error f, micros⟩) →
    r = .error (f.map .table)

section

variable {α : Type} {surprised : Prop} {who : Actor} {call : Call} {reply : Reply}
  {answer : Answer} {events : List Event} {r : Except (Failure WorkError) α}

/-- Nothing was done. -/
theorem judged_nil (calm : ¬ surprised) (r : Except (Failure WorkError) α)
    (blameless : blamed? r = none) : Judged surprised [] r where
  alarms := by rw [blameless]; rfl
  surprised_iff := by
    rw [blameless]
    exact ⟨fun h => (by cases h), fun h => absurd h calm⟩
  failed e he := by cases he

/-- The only call failed. -/
theorem judged_refused (calm : ¬ surprised) {f : Failure TableError}
    (outcome : reply.outcome = .error f) :
    Judged surprised [⟨who, .call call, reply⟩]
      (.error (f.map .table) : Except (Failure WorkError) α) where
  alarms := by rw [blamed?_refused]; rfl
  surprised_iff := by
    rw [blamed?_refused]
    exact ⟨fun h => (by cases h), fun h => absurd h calm⟩
  failed e he call f' micros same := by
    obtain rfl := List.mem_singleton.1 he
    cases same
    cases outcome
    rfl

/-- The only call was answered, and that was a surprise. -/
theorem judged_mismatched (surprise : surprised) (outcome : reply.outcome = .ok answer) (n : Note)
    {e : WorkError}
    (blamed : blamed? (.error (.error e) : Except (Failure WorkError) α) = some e) :
    Judged surprised [⟨who, .call call, reply⟩, ⟨who, .note n, ()⟩, ⟨who, .alarm e, ()⟩]
      (.error (.error e) : Except (Failure WorkError) α) where
  alarms := by rw [blamed]; rfl
  surprised_iff := by
    rw [blamed]
    exact ⟨fun _ => surprise, fun _ => rfl⟩
  failed e he call f micros same := by
    simp only [List.mem_cons, List.not_mem_nil, or_false] at he
    rcases he with rfl | rfl | rfl
    · cases same
      cases outcome
    · cases same
    · cases same

theorem Judged.congr {surprised' : Prop} (judged : Judged surprised events r)
    (same : surprised ↔ surprised') : Judged surprised' events r :=
  ⟨judged.alarms, judged.surprised_iff.trans same, judged.failed⟩

/-- One more call was answered before. -/
theorem Judged.cons (judged : Judged surprised events r) (outcome : reply.outcome = .ok answer) :
    Judged surprised (⟨who, .call call, reply⟩ :: events) r where
  alarms := judged.alarms
  surprised_iff := judged.surprised_iff
  failed e he call f micros failing := by
    rcases List.mem_cons.1 he with rfl | he
    · cases failing
      cases outcome
    · exact judged.failed e he call f micros failing

end

/-! ## Filling -/

theorem denied_iff {who : Actor} {call : Call} {reply : Reply} {answer : Answer}
    (outcome : reply.outcome = .ok answer) :
    Event.Denied ⟨who, .call call, reply⟩ ↔ answer.holds = false := by
  constructor
  · rintro ⟨_, _, _, same, denied⟩
    cases same
    cases outcome
    exact denied
  · intro denied
    exact ⟨call, answer, reply.micros, by rw [← outcome]; rfl, denied⟩

/-- Filling is judged by whether all inserts took effect.  Those that do go on,
so the first one that does not is the cause of the alarm, and the last call
before it. -/
theorem judged_of_filling {keys : KeySpace} {thread seq : UInt64} {count : Nat}
    {values values' : ValueSource} {events : List Event} {r : Except (Failure WorkError) Unit}
    (filling : Filling keys thread count seq values events r values') :
    Judged (∃ e ∈ events, e.Denied) events r := by
  induction filling with
  | finished => exact judged_nil (by simp) _ rfl
  | keyless _ => exact judged_nil (by simp) _ rfl
  | valueless _ => exact judged_nil (by simp) _ rfl
  | refused _ _ outcome =>
    refine judged_refused (fun denied => ?_) outcome
    rcases denied with ⟨e, he, _, _, _, same, -⟩
    obtain rfl := List.mem_singleton.1 he
    cases same
    cases outcome
  | mismatched _ _ outcome miss =>
    exact judged_mismatched ⟨_, List.mem_cons_self, (denied_iff outcome).2 miss⟩ outcome _ rfl
  | added _ _ outcome hit _ ih =>
    refine (ih.cons outcome).congr ?_
    simp only [List.mem_cons, exists_eq_or_imp, denied_iff outcome, hit, Bool.true_eq_false,
      false_or]

/-! ## Replaying -/

/-- After some operations that all went as planned, the next call of a replay
was answered, but not as planned. -/
inductive Caught (schedule : Schedule) (ops : UInt64) : Nat → Nat → Worker → List Event → Prop
  | here {op n : Nat} {w : Worker} {probe : Probe} {reply : Reply} {answer : Answer}
      {later : List Event} : w.plan (.ofNat op) (.ofNat (op % 100)) (schedule.kindAt op) ops =
      .ok probe →
      reply.outcome = .ok answer → answer.holds ≠ probe.expected →
      Caught schedule ops op (n + 1) w (⟨.worker w.thread, .call probe.call, reply⟩ :: later)
  | later {op n : Nat} {w w' : Worker} {first later : List Event} :
      ((step (.ofNat op) (.ofNat (op % 100)) (schedule.kindAt op) ops).start w).Runs first
        (.ok (), w') →
      Caught schedule ops (op + 1) n w' later → Caught schedule ops op (n + 1) w (first ++ later)

section

variable {schedule : Schedule} {ops : UInt64} {op n : Nat} {w w' : Worker} {events : List Event}

/-- The only way through a step whose call gets an unexpected answer: the
mismatch is noted, the alarm is raised, and the step fails with it. -/
theorem Stepped.result_of_miss {slot opNumber : UInt64} {kind : OpKind} {probe : Probe}
    {reply : Reply} {answer : Answer} {first rest later : List Event}
    {r : Except (Failure WorkError) Unit} (stepped : Stepped w opNumber slot kind ops first r w')
    (plan : w.plan opNumber slot kind ops = .ok probe) (outcome : reply.outcome = .ok answer)
    (miss : answer.holds ≠ probe.expected)
    (all : first ++ rest = ⟨.worker w.thread, .call probe.call, reply⟩ :: later) :
    r = .error (.error (.mismatch (w.mismatch opNumber kind probe answer.holds))) := by
  have same {probe' : Probe} {reply' : Reply} {tail : List Event}
      (plan' : w.plan opNumber slot kind ops = .ok probe')
      (head : ⟨.worker w.thread, .call probe'.call, reply'⟩ :: tail =
        ⟨.worker w.thread, .call probe.call, reply⟩ :: later) : probe' = probe ∧
            reply'.outcome = .ok answer := by
    rw [plan] at plan'
    cases plan'
    cases head
    exact ⟨rfl, outcome⟩
  cases stepped with
  | unplanned plan' =>
    rw [plan] at plan'
    cases plan'
  | refused plan' outcome' =>
    rw [(same plan' all).2] at outcome'
    cases outcome'
  | mismatched plan' outcome' _ =>
    obtain ⟨rfl, answered⟩ := same plan' all
    rw [answered] at outcome'
    cases outcome'
    rfl
  | overflown plan' outcome' hit _ =>
    obtain ⟨rfl, answered⟩ := same plan' all
    rw [answered] at outcome'
    cases outcome'
    exact absurd hit miss
  | disordered plan' outcome' hit _ _ =>
    obtain ⟨rfl, answered⟩ := same plan' all
    rw [answered] at outcome'
    cases outcome'
    exact absurd hit miss
  | advanced plan' outcome' hit _ _ =>
    obtain ⟨rfl, answered⟩ := same plan' all
    rw [answered] at outcome'
    cases outcome'
    exact absurd hit miss

/-- Whatever is to be done after a replay, a surprise in it is the end: nothing
that follows can be reached. -/
theorem mismatch_of_caught {α : Type} {next : Unit → Task Worker α}
    {r : Except (Failure WorkError) α} (caught : Caught schedule ops op n w events)
    (runs : ((steps schedule ops op n >>= next).start w).Runs events (r, w')) :
    ∃ m, r = .error (.error (.mismatch m)) := by
  induction caught with
  | here plan outcome miss =>
    rw [steps, bind_assoc] at runs
    rcases Task.runs_bind_iff.1 runs with ⟨e, rfl, failed⟩ | ⟨u, mid, first, later, all, head, -⟩
    · have ended := (stepped_of_runs failed).result_of_miss plan outcome miss (List.append_nil _)
      injection ended with ended
      exact ⟨_, congrArg Except.error ended⟩
    · cases (stepped_of_runs head).result_of_miss plan outcome miss all.symm
  | later head _ ih =>
    rw [steps, bind_assoc, Task.start_bind] at runs
    have rest := Script.Runs.rest head runs
    exact ih rest

/-- A replay is judged by whether it was caught by surprise, if nothing that
follows it is. -/
theorem judged_of_steps {α : Type} {next : Unit → Task Worker α}
    {r : Except (Failure WorkError) α}
    (quiet : ∀ {w events r w'}, ((next ()).start w).Runs events (r, w') → Judged False events r)
    (runs : ((steps schedule ops op n >>= next).start w).Runs events (r, w')) :
    Judged (Caught schedule ops op n w events) events r := by
  induction n generalizing op w events with
  | zero =>
    rw [steps, pure_bind] at runs
    have never : ¬ Caught schedule ops op 0 w events := fun h => by cases h
    rw [eq_false never]
    exact quiet runs
  | succ n ih =>
    have caught := fun h => mismatch_of_caught (h : Caught schedule ops op (n + 1) w events) runs
    rw [steps, bind_assoc] at runs
    rcases Task.runs_bind_iff.1 runs with ⟨e, rfl, failed⟩
      | ⟨u, mid, first, later, rfl, head, tail⟩
    · have calm {c : Crash} (crash : e = .crash c) :
          ¬ Caught schedule ops op (n + 1) w events := by
        intro h
        obtain ⟨m, same⟩ := caught h
        rw [crash] at same
        cases same
      generalize stops : (Except.error e : Except (Failure WorkError) Unit) = stop at failed
      cases stepped_of_runs failed with
      | unplanned _ =>
        cases stops
        exact judged_nil (calm rfl) _ rfl
      | @refused _ _ f _ outcome =>
        cases stops
        refine judged_refused (fun h => ?_) outcome
        obtain ⟨m, same⟩ := caught h
        cases f with
        | error e => cases same
        | crash c => cases same
      | mismatched plan outcome miss =>
        cases stops
        exact judged_mismatched (.here plan outcome miss) outcome _ rfl
      | overflown _ outcome _ _ =>
        cases stops
        exact (judged_nil (calm rfl) (.error (.crash _)) rfl).cons outcome
      | disordered _ outcome _ _ _ =>
        cases stops
        exact (judged_nil (calm rfl) (.error (.crash _)) rfl).cons outcome
      | advanced _ _ _ _ _ => cases stops
    · have rest := ih tail
      have same : Caught schedule ops (op + 1) n mid later ↔
          Caught schedule ops op (n + 1) w (first ++ later) := by
        refine ⟨.later head, fun h => rest.surprised_iff.1 ?_⟩
        obtain ⟨m, rfl⟩ := caught h
        rfl
      obtain ⟨_, _, _, _, -, outcome, -, -, -, rfl, -⟩ := advanced_of_runs head
      exact (rest.cons outcome).congr same

end

end Worker

end TableProbe
