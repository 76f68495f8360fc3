import TableProbe.Proofs.Worker.Counters
import TableProbe.Proofs.Worker.Paired

/-!
# What a worker records

A worker that records latencies takes one sample for each call that was
answered, whether the answer was as expected or not, and none for a call that
failed (`Worker.samples_of_serve`).  Nothing else depends on the samples:
workers that differ in them only do the same (`Worker.alike_serve`).
-/

namespace TableProbe

/-- How long a call took, in microseconds, if it was answered. -/
def Event.latency? (e : Event) : Option Nat :=
  match e.call? with
  | some (_, ⟨.ok _, micros⟩) => some micros.toNat
  | _ => none

/-- The event is a call that was answered, as expected or not. -/
def Event.isAnswered (e : Event) : Bool := e.call?.any fun answered => answered.2.outcome.isOk

/-- The latencies of the answered calls, in order. -/
def latencies (events : List Event) : List Nat := events.filterMap Event.latency?

theorem isSome_latency? (e : Event) : e.latency?.isSome = e.isAnswered := by
  unfold Event.latency? Event.isAnswered
  cases e.call? with
  | none => rfl
  | some answered =>
    rcases answered with ⟨_, outcome, _⟩
    cases outcome with
    | ok _ => rfl
    | error _ => rfl

/-- There is one latency for each answered call, as expected or not. -/
theorem length_latencies (events : List Event) :
    (latencies events).length = events.countP Event.isAnswered := by
  rw [latencies, List.length_filterMap_eq_countP]
  exact List.countP_congr fun e _ => by rw [isSome_latency?]

theorem latencies_append (first later : List Event) :
    latencies (first ++ later) = latencies first ++ latencies later :=
  List.filterMap_append ..

theorem latency?_of_ok {who : Actor} {call : Call} {reply : Reply} {answer : Answer}
    (outcome : reply.outcome = .ok answer) :
    Event.latency? ⟨who, .call call, reply⟩ = some reply.micros.toNat := by
  rcases reply with ⟨_, micros⟩
  cases outcome
  rfl

theorem latency?_of_error {who : Actor} {call : Call} {reply : Reply} {f : Failure TableError}
    (outcome : reply.outcome = .error f) : Event.latency? ⟨who, .call call, reply⟩ = none := by
  rcases reply with ⟨_, micros⟩
  cases outcome
  rfl

namespace Worker

/-! ## Samples -/

/-- The second worker has recorded these latencies after what the first one
had. -/
def Sampled (w : Worker) (values : List Nat) (w' : Worker) : Prop :=
  w'.samples = w.samples.map fun h => values.foldl Histogram.record h

theorem sampled_nil {w w' : Worker} (same : w'.samples = w.samples) : Sampled w [] w' := by
  rw [Sampled, same]
  exact Option.map_id'.symm

theorem Sampled.append {w w' w'' : Worker} {first later : List Nat} (head : Sampled w first w')
    (tail : Sampled w' later w'') : Sampled w (first ++ later) w'' := by
  unfold Sampled at head tail ⊢
  rw [tail, head, Option.map_map]
  simp only [Function.comp_def, List.foldl_append]

/-- Whatever the replies are, the task records the latencies of its answered
calls.  If it succeeds, there are `n` of them. -/
def Samples {α : Type} (task : Task Worker α) (n : Nat) : Prop :=
  ∀ ⦃w : Worker⦄ ⦃events : List Event⦄ ⦃r : Except (Failure WorkError) α⦄ ⦃w' : Worker⦄,
    (task.start w).Runs events (r, w') →
      Sampled w (latencies events) w' ∧ ∀ a, r = .ok a → (latencies events).length = n

theorem samples_pure {α : Type} (a : α) : Samples (pure a) 0 := by
  intro w events r w' runs
  obtain ⟨rfl, same⟩ := Script.runs_done_iff.1 runs
  cases same
  exact ⟨sampled_nil rfl, fun _ _ => rfl⟩

/-- The latencies of two tasks are recorded one after the other.  If the first
task fails then those that it recorded are kept. -/
theorem Samples.bind {α β : Type} {task : Task Worker α} {next : α → Task Worker β} {m n : Nat}
    (head : Samples task m) (tail : ∀ a, Samples (next a) n) :
    Samples (task >>= next) (m + n) := by
  intro w events r w' runs
  rcases Task.runs_bind_iff.1 runs with ⟨e, rfl, failed⟩
    | ⟨a, mid, first, later, rfl, head', tail'⟩
  · exact ⟨(head failed).1, fun a same => by cases same⟩
  · obtain ⟨sampled, count⟩ := head head'
    obtain ⟨sampled', count'⟩ := tail a tail'
    rw [latencies_append, List.length_append]
    exact ⟨sampled.append sampled', fun b same => congrArg₂ (· + ·) (count a rfl) (count' b same)⟩

/-- A step records the latency of its call before it looks at the answer.  So
the latency is kept even if the step then fails. -/
theorem samples_step (op slot : UInt64) (kind : OpKind) (ops : UInt64) :
    Samples (step op slot kind ops) 1 := by
  intro w events r w' runs
  have one {who : Actor} {call : Call} {reply : Reply} {answer : Answer} (later : List Event)
      (outcome : reply.outcome = .ok answer) (quiet : latencies later = []) :
      latencies (⟨who, .call call, reply⟩ :: later) = [reply.micros.toNat] := by
    rw [latencies, List.filterMap_cons, latency?_of_ok outcome]
    exact congrArg _ quiet
  cases stepped_of_runs runs with
  | unplanned _ => exact ⟨sampled_nil rfl, fun a same => by cases same⟩
  | refused _ outcome =>
    rw [latencies, List.filterMap_cons, latency?_of_error outcome]
    exact ⟨sampled_nil rfl, fun a same => by cases same⟩
  | mismatched _ outcome _ =>
    rw [one _ outcome rfl]
    exact ⟨rfl, fun _ _ => rfl⟩
  | overflown _ outcome _ _ =>
    rw [one _ outcome rfl]
    exact ⟨rfl, fun _ _ => rfl⟩
  | disordered _ outcome _ _ _ =>
    rw [one _ outcome rfl]
    exact ⟨rfl, fun _ _ => rfl⟩
  | advanced _ outcome _ _ _ =>
    rw [one _ outcome rfl]
    exact ⟨rfl, fun _ _ => rfl⟩

theorem samples_steps (schedule : Schedule) (ops : UInt64) (op n : Nat) :
    Samples (steps schedule ops op n) n := by
  induction n generalizing op with
  | zero => exact samples_pure ()
  | succ n ih =>
    have both : Samples (steps schedule ops op (n + 1)) (1 + n) :=
      Samples.bind (samples_step _ _ _ ops) fun _ => ih (op + 1)
    exact Nat.add_comm 1 n ▸ both

theorem samples_replay (schedule : Schedule) (ops : UInt64) :
    Samples (replay schedule ops) ops.toNat := by
  rw [replay_eq_steps]
  exact samples_steps schedule ops 0 ops.toNat

/-- A worker that failed records on when it is asked again, so what it has
recorded in the end are the latencies of all answered calls. -/
theorem samples_of_serve {orders : List Order} {w w' : Worker} {events : List Event}
    {results : List (Except (Failure WorkError) Unit)}
    (runs : (serve orders w).Runs events (results, w')) : Sampled w (latencies events) w' := by
  induction orders generalizing w events results with
  | nil =>
    obtain ⟨rfl, same⟩ := Script.runs_done_iff.1 runs
    cases same
    exact sampled_nil rfl
  | cons order orders ih =>
    obtain ⟨first, ⟨r, w₁⟩, later, rfl, head, tail⟩ := Script.runs_bind_iff.1 runs
    obtain ⟨second, ⟨rest, w₂⟩, last, rfl, tail, done⟩ := Script.runs_bind_iff.1 tail
    obtain ⟨rfl, same⟩ := Script.runs_done_iff.1 done
    cases same
    have sampled : Sampled w (latencies first) w₁ := by
      cases order with
      | step op slot kind ops => exact (samples_step op slot kind ops head).1
      | replay schedule ops => exact (samples_replay schedule ops head).1
    rw [List.append_nil, latencies_append]
    exact sampled.append (ih tail)

/-! ## Workers that differ in their samples -/

/-- Only the second worker records latencies. -/
def SecondRecords (a b : Option Histogram) : Prop := a = none ∧ b.isSome = true

theorem keptByRecord_secondRecords : KeptByRecord SecondRecords := by
  intro a b m n differ
  rcases differ with ⟨rfl, some_samples⟩
  exact ⟨rfl, by rwa [Option.isSome_map]⟩

theorem plansWithin_true (space : KeySpace) (thread : UInt64) :
    PlansWithin (fun _ => True) space thread :=
  fun _ _ _ _ _ _ _ _ _ => trivial

/-- Workers that are asked for the same and differ in what they recorded only,
do the same. -/
theorem alike_serve {S : Option Histogram → Option Histogram → Prop} {space : KeySpace}
    {thread : UInt64} (kept : KeptByRecord S) (orders : List Order) {w w' : Worker}
    (peers : Peers S space thread w w') :
    Script.Alike (.worker thread) (fun _ => True) (fun x x' => x.1 = x'.1 ∧
      Peers S space thread x.2 x'.2) (serve orders w) (serve orders w') := by
  induction orders generalizing w w' with
  | nil => exact .done ⟨rfl, peers⟩
  | cons order orders ih =>
    have within := plansWithin_true space thread
    have paired : Task.Paired (.worker thread) (fun _ => True) (Peers S space thread)
        (fun _ _ => True) order.task order.task := by
      cases order with
      | step op slot kind ops => exact paired_step within kept op slot kind ops
      | replay schedule ops => exact paired_replay within kept schedule ops
    unfold serve
    apply (paired w w' peers).bind
    intro x x' related
    rcases x with ⟨r, v⟩
    rcases x' with ⟨r', v'⟩
    rcases related with ⟨ends, peers'⟩
    have same : r = r' := by
      cases ends with
      | ok _ => rfl
      | error e => rfl
    apply (ih peers').bind
    intro y y' rest
    exact .done ⟨congrArg₂ List.cons same rest.1, rest.2⟩

end Worker

end TableProbe
