import TableProbe.Proofs.Script.Runs
import TableProbe.Proofs.Script.Task
import TableProbe.Worker.Step

/-!
# What a step can do

A step either makes no call at all, because it cannot be planned, or makes the
planned call and then ends in one of a few ways.  `Worker.Stepped` lists them,
each with its events, its result and the worker that is left;
`Worker.stepped_of_runs` says that there are no others, whatever the table
replies.
-/

namespace TableProbe

/-- The mismatch that a worker reports for a probe. -/
def Worker.mismatch (w : Worker) (op : UInt64) (kind : OpKind) (probe : Probe) (got : Bool) :
    Mismatch where
  thread := w.thread
  kind := kind
  seq := probe.seq
  op := op
  got := got
  expected := probe.expected

/-- The worker after its call was answered, before anything is made of the
answer. -/
def Worker.answered (w : Worker) (probe : Probe) (reply : Reply) : Worker :=
  { w with values := probe.values }.sample reply.micros

namespace Worker

variable {w w' : Worker} {op slot ops : UInt64} {kind : OpKind} {probe : Probe} {reply : Reply}

@[simp] theorem answered_window : (w.answered probe reply).window = w.window := rfl

@[simp] theorem answered_values : (w.answered probe reply).values = probe.values := rfl

theorem start_check (w : Worker) (op : UInt64) (kind : OpKind) (probe : Probe) (got : Bool) :
    (check op kind probe got).start w =
      if got = probe.expected then .done (.ok (), w)
      else
        let m := w.mismatch op kind probe got
        .act (.worker w.thread) (.note (.mismatch m w.window)) fun _ =>
          .act (.worker w.thread) (.alarm (.mismatch m)) fun _ =>
            .done (.error (.error (.mismatch m)), w) := by
  unfold check
  rw [Task.start_bind, Task.start_get, Script.done_bind]
  by_cases hit : got = probe.expected
  · rw [if_pos hit]
    simp only [hit, if_true, Task.start_pure]
  · rw [if_neg hit]
    simp only [hit, if_false]
    rfl

theorem start_advance (w : Worker) (move : Move) :
    (advance move).start w =
      match w.window.advance move with
      | .error c => .done (.error (.crash c), w)
      | .ok window =>
        let r := if window.erased ≤ window.inserted then .ok ()
          else .error (.crash .countersOutOfOrder)
        .done (r, { w with window }) := by
  unfold advance
  rw [Task.start_bind, Task.start_get, Script.done_bind]
  dsimp only
  rw [Task.start_bind, Task.start_compute, Script.done_bind]
  cases w.window.advance move with
  | error c => rfl
  | ok window =>
    by_cases ordered : window.erased ≤ window.inserted
    · simp only [Failure.ofCrash_ok, ordered, if_true]
      rfl
    · simp only [Failure.ofCrash_ok, ordered, if_false]
      rfl

/-- How a step goes on after the reply to its call. -/
def conclude (w : Worker) (op : UInt64) (kind : OpKind) (probe : Probe) (reply : Reply) :
    Script (Except (Failure WorkError) Unit × Worker) :=
  match reply.outcome with
  | .error f => .done (.error (f.map .table), { w with values := probe.values })
  | .ok answer =>
    (do check op kind probe answer.holds; advance probe.move).start (w.answered probe reply)

/-- All of a step but its plan comes after its one call.  So a step that fails
before the call has failed to plan it. -/
theorem start_step (w : Worker) (op slot : UInt64) (kind : OpKind) (ops : UInt64) :
    (step op slot kind ops).start w =
      match w.plan op slot kind ops with
      | .error c => .done (.error (.crash c), w)
      | .ok probe => .act (.worker w.thread) (.call probe.call) (w.conclude op kind probe) := by
  unfold step
  rw [Task.start_bind, Task.start_get, Script.done_bind]
  dsimp only
  rw [Task.start_bind, Task.start_compute, Script.done_bind]
  cases w.plan op slot kind ops with
  | error c => rfl
  | ok probe =>
    refine congrArg (Script.act (.worker w.thread) (.call probe.call)) (funext fun reply => ?_)
    rcases reply with ⟨f | answer, micros⟩
    · rfl
    · rfl

/-! ## The ways through a step -/

/-- The ways in which a step of a worker can go: what is done, with what
result, and which worker is left. -/
inductive Stepped (w : Worker) (op slot : UInt64) (kind : OpKind) (ops : UInt64) :
    List Event → Except (Failure WorkError) Unit → Worker → Prop
  | unplanned {c : Crash} :
      w.plan op slot kind ops = .error c → Stepped w op slot kind ops [] (.error (.crash c)) w
  | refused {probe : Probe} {reply : Reply} {f : Failure TableError} :
      w.plan op slot kind ops = .ok probe → reply.outcome = .error f →
      Stepped w op slot kind ops [⟨.worker w.thread, .call probe.call, reply⟩]
        (.error (f.map .table)) { w with values := probe.values }
  | mismatched {probe : Probe} {reply : Reply} {answer : Answer} :
      w.plan op slot kind ops = .ok probe → reply.outcome = .ok answer →
      answer.holds ≠ probe.expected →
      Stepped w op slot kind ops
        [⟨.worker w.thread, .call probe.call, reply⟩,
          ⟨.worker w.thread,
            .note (.mismatch (w.mismatch op kind probe answer.holds) w.window), ()⟩,
          ⟨.worker w.thread, .alarm (.mismatch (w.mismatch op kind probe answer.holds)), ()⟩]
        (.error (.error (.mismatch (w.mismatch op kind probe answer.holds))))
        (w.answered probe reply)
  | overflown {probe : Probe} {reply : Reply} {answer : Answer} {c : Crash} :
      w.plan op slot kind ops = .ok probe → reply.outcome = .ok answer →
      answer.holds = probe.expected → w.window.advance probe.move = .error c →
      Stepped w op slot kind ops [⟨.worker w.thread, .call probe.call, reply⟩] (.error (.crash c))
        (w.answered probe reply)
  | disordered {probe : Probe} {reply : Reply} {answer : Answer} {window : Window} :
      w.plan op slot kind ops = .ok probe → reply.outcome = .ok answer →
      answer.holds = probe.expected → w.window.advance probe.move = .ok window →
      ¬ window.erased ≤ window.inserted →
      Stepped w op slot kind ops [⟨.worker w.thread, .call probe.call, reply⟩]
        (.error (.crash .countersOutOfOrder)) { w.answered probe reply with window }
  | advanced {probe : Probe} {reply : Reply} {answer : Answer} {window : Window} :
      w.plan op slot kind ops = .ok probe → reply.outcome = .ok answer →
      answer.holds = probe.expected → w.window.advance probe.move = .ok window →
      window.erased ≤ window.inserted →
      Stepped w op slot kind ops [⟨.worker w.thread, .call probe.call, reply⟩] (.ok ())
        { w.answered probe reply with window }

/-- Every way through a step is one of these.  Later proofs take steps apart by
this lemma, and never look at how a step is written. -/
theorem stepped_of_runs {events : List Event} {r : Except (Failure WorkError) Unit}
    (runs : ((step op slot kind ops).start w).Runs events (r, w')) :
    Stepped w op slot kind ops events r w' := by
  rw [start_step] at runs
  cases plan : w.plan op slot kind ops with
  | error c =>
    rw [plan] at runs
    cases runs
    exact .unplanned plan
  | ok probe =>
    rw [plan] at runs
    obtain ⟨reply, later, rfl, after⟩ := Script.runs_act_iff.1 runs
    unfold conclude at after
    cases outcome : Reply.outcome reply with
    | error f =>
      rw [outcome] at after
      cases after
      exact .refused plan outcome
    | ok answer =>
      rw [outcome] at after
      dsimp only at after
      rw [Task.start_bind, start_check] at after
      by_cases hit : answer.holds = probe.expected
      · rw [if_pos hit, Script.done_bind] at after
        dsimp only at after
        rw [start_advance] at after
        cases advance : w.window.advance probe.move with
        | error c =>
          rw [answered_window, advance] at after
          cases after
          exact .overflown plan outcome hit advance
        | ok window =>
          rw [answered_window, advance] at after
          by_cases ordered : window.erased ≤ window.inserted
          · simp only [ordered, if_true] at after
            cases after
            exact .advanced plan outcome hit advance ordered
          · simp only [ordered, if_false] at after
            cases after
            exact .disordered plan outcome hit advance ordered
      · rw [if_neg hit] at after
        cases after with
        | act after =>
          cases after with
          | act after =>
            cases after
            exact .mismatched plan outcome hit

/-- A step that succeeds goes all the way: its answer is as expected, and the
counters move on. -/
theorem advanced_of_runs {events : List Event}
    (runs : ((step op slot kind ops).start w).Runs events (.ok (), w')) :
    ∃ probe reply answer window, w.plan op slot kind ops = .ok probe ∧
      reply.outcome = .ok answer ∧
      answer.holds = probe.expected ∧ w.window.advance probe.move = .ok window ∧
      window.erased ≤ window.inserted ∧ events = [⟨.worker w.thread, .call probe.call, reply⟩] ∧
      w' = { w.answered probe reply with window } := by
  generalize went : (Except.ok () : Except (Failure WorkError) Unit) = r at runs
  cases stepped_of_runs runs with
  | unplanned _ => cases went
  | refused _ _ => cases went
  | mismatched _ _ _ => cases went
  | overflown _ _ _ _ => cases went
  | disordered _ _ _ _ _ => cases went
  | advanced plan outcome hit advance ordered =>
    exact ⟨_, _, _, _, plan, outcome, hit, advance, ordered, rfl, rfl⟩

/-- A step makes the call that was planned, or none.  In the latter case it
could not be planned, and nothing at all was done. -/
theorem Stepped.calls {events : List Event} {r : Except (Failure WorkError) Unit}
    (stepped : Stepped w op slot kind ops events r w') :
    (∃ c, w.plan op slot kind ops = .error c ∧ events = [] ∧ r = .error (.crash c) ∧ w' = w) ∨
      ∃ probe reply, w.plan op slot kind ops = .ok probe ∧
        events.filterMap Event.call? = [(probe.call, reply)] ∧ w'.values = probe.values := by
  cases stepped with
  | unplanned plan => exact .inl ⟨_, plan, rfl, rfl, rfl⟩
  | refused plan _ => exact .inr ⟨_, _, plan, rfl, rfl⟩
  | mismatched plan _ _ => exact .inr ⟨_, _, plan, rfl, rfl⟩
  | overflown plan _ _ _ => exact .inr ⟨_, _, plan, rfl, rfl⟩
  | disordered plan _ _ _ _ => exact .inr ⟨_, _, plan, rfl, rfl⟩
  | advanced plan _ _ _ _ => exact .inr ⟨_, _, plan, rfl, rfl⟩

/-- A step does not change whose keys it uses. -/
theorem Stepped.same_keys {events : List Event} {r : Except (Failure WorkError) Unit}
    (stepped : Stepped w op slot kind ops events r w') :
    w'.keys = w.keys ∧ w'.thread = w.thread := by
  cases stepped with
  | unplanned _ => exact ⟨rfl, rfl⟩
  | refused _ _ => exact ⟨rfl, rfl⟩
  | mismatched _ _ _ => exact ⟨rfl, rfl⟩
  | overflown _ _ _ _ => exact ⟨rfl, rfl⟩
  | disordered _ _ _ _ _ => exact ⟨rfl, rfl⟩
  | advanced _ _ _ _ _ => exact ⟨rfl, rfl⟩

end Worker

end TableProbe
