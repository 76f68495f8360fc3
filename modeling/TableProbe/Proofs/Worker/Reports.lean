import TableProbe.Proofs.Worker.InRange

/-!
# How a step reports its failure

A step makes one call at most.  If it fails, then its window stays where it
was, and what it reports is read off the reply to that call: an answer other
than expected is noted once and raises the alarm once, an error of the table or
a crash is passed on in silence.  Each fact is one about `Worker.Stepped`, the
ways through a step; `Worker.step_reports_once` is all of them together.
-/

namespace TableProbe.Worker

section

variable {w w' : Worker} {op slot ops : UInt64} {kind : OpKind} {events : List Event}
  {r : Except (Failure WorkError) Unit}

theorem Stepped.length_calls_le (stepped : Stepped w op slot kind ops events r w') :
    (events.filterMap Event.call?).length ≤ 1 := by
  rcases stepped.calls with ⟨c, -, none, -⟩ | ⟨probe, reply, -, once, -⟩
  · rw [none]
    exact Nat.zero_le 1
  · rw [once]
    exact Nat.le_refl 1

/-- A step that fails does not move the counters: they are counted up last,
when the answer was found to be as expected. -/
theorem Stepped.window_eq (stepped : Stepped w op slot kind ops events r w')
    (ordered : w.window.erased ≤ w.window.inserted) (fails : r ≠ .ok ()) :
    w'.window = w.window := by
  cases stepped with
  | unplanned _ => rfl
  | refused _ _ => rfl
  | mismatched _ _ _ => rfl
  | overflown _ _ _ _ => rfl
  | disordered plan _ _ advance disorder =>
    exact absurd (ordered_advance (planned_of_plan plan) ordered advance) disorder
  | advanced _ _ _ _ _ => exact absurd rfl fails

/-- The next value is taken by a call that writes it, and by nothing else. -/
theorem Stepped.next_values (stepped : Stepped w op slot kind ops events r w') :
    if kind.writes ∧ events.filterMap Event.call? ≠ [] then ∃ value, w.values.next =
      .ok (value, w'.values)
    else w'.values = w.values := by
  rcases stepped.calls with ⟨c, -, rfl, -, rfl⟩ | ⟨probe, reply, plan, once, same⟩
  · rw [if_neg fun h => h.2 rfl]
  · have next := (planned_of_plan plan).next_values
    have some_call : events.filterMap Event.call? ≠ [] := once ▸ List.cons_ne_nil _ []
    rw [same]
    simpa only [some_call, and_true, not_false_eq_true, ne_eq] using next

/-- The mismatch of an operation whose call gets an answer other than expected. -/
def mismatchOf (w : Worker) (op slot : UInt64) (kind : OpKind) (ops : UInt64) (got : Bool) :
    Mismatch where
  thread := w.thread
  kind := kind
  seq := w.seqOf op slot kind ops
  op := op
  got := got
  expected := w.expects op slot kind ops

/-- What is reported of a call can be told from worker, operation and answer,
before anything is drawn for the call. -/
theorem mismatch_eq {probe : Probe} (planned : Planned w op slot kind ops probe) (got : Bool) :
    w.mismatch op kind probe got = w.mismatchOf op slot kind ops got := by
  rw [mismatch, mismatchOf, planned.seq_eq, planned.expected_eq]

/-- What an error of a step says about the reply to its call, and what was
reported. -/
theorem Stepped.reported (stepped : Stepped w op slot kind ops events r w') {e : WorkError}
    (failed : r = .error (.error e)) :
    ∃ call reply, events.filterMap Event.call? = [(call, reply)] ∧
      ((∃ cause, reply.outcome = .error (.error cause) ∧ e = .table cause ∧
          events.filterMap Event.note? = [] ∧ events.filterMap Event.alarm? = [] ∧
            w'.samples = w.samples) ∨
        ∃ answer, reply.outcome = .ok answer ∧ answer.holds ≠ w.expects op slot kind ops ∧
          e = .mismatch (w.mismatchOf op slot kind ops answer.holds) ∧
          events.filterMap Event.note? =
            [.mismatch (w.mismatchOf op slot kind ops answer.holds) w.window] ∧
          events.filterMap Event.alarm? = [e] ∧
          w'.samples = w.samples.map fun h => h.record reply.micros.toNat) := by
  cases stepped with
  | unplanned _ => cases failed
  | @refused probe reply f _ outcome =>
    cases f with
    | error cause =>
      cases failed
      exact ⟨_, _, rfl, .inl ⟨cause, outcome, rfl, rfl, rfl, rfl⟩⟩
    | crash c => cases failed
  | @mismatched probe reply answer plan outcome miss =>
    have planned := planned_of_plan plan
    cases failed
    rw [mismatch_eq planned]
    exact ⟨_, _, rfl, .inr ⟨answer, outcome, planned.expected_eq ▸ miss, rfl, rfl, rfl, rfl⟩⟩
  | overflown _ _ _ _ => cases failed
  | disordered _ _ _ _ _ => cases failed
  | advanced _ _ _ _ _ => cases failed

/-- Where a crash of a step can come from; nothing is reported about it.  The
plan can crash before the call, the call itself, or a counter after it. -/
theorem Stepped.crashed (stepped : Stepped w op slot kind ops events r w')
    (ordered : w.window.erased ≤ w.window.inserted) {c : Crash} (failed : r = .error (.crash c)) :
    events.filterMap Event.note? = [] ∧ events.filterMap Event.alarm? = [] ∧
      (events.filterMap Event.call? = [] ∧ Hindered w op slot kind ops c ∨
        ∃ call reply, events.filterMap Event.call? = [(call, reply)] ∧
          (reply.outcome = .error (.crash c) ∨
            c = .sumTooLarge ∧ w.Adds op slot kind ∧ w.window.inserted.toNat = 2 ^ 64 - 1 ∧
              (∃ key value, call = .insert key value) ∧
              ∃ answer, reply.outcome = .ok answer ∧ answer.holds = true)) := by
  cases stepped with
  | unplanned plan =>
    cases failed
    exact ⟨rfl, rfl, .inl ⟨rfl, hindered_of_plan plan⟩⟩
  | @refused probe reply f _ outcome =>
    cases f with
    | error cause => cases failed
    | crash c =>
      cases failed
      exact ⟨rfl, rfl, .inr ⟨_, _, rfl, .inl outcome⟩⟩
  | mismatched _ _ _ => cases failed
  | @overflown probe reply answer _ plan outcome hit full =>
    cases failed
    have sum := Window.eq_sumTooLarge_of_advance full
    have planned := planned_of_plan plan
    obtain ⟨inserts, limit⟩ := isInsert_of_overflow planned full
    have last : w.window.inserted.toNat = 2 ^ 64 - 1 := by
      have bound : w.window.inserted.toNat < 2 ^ 64 := w.window.inserted.toNat_lt
      omega
    refine ⟨rfl, rfl, .inr ⟨_, _, rfl, .inr ⟨sum, ?_⟩⟩⟩
    cases planned with
    | insert adds _ _ => exact ⟨adds, last, ⟨_, _, rfl⟩, answer, outcome, hit⟩
    | read _ _ _ => cases inserts
    | erase _ _ => cases inserts
    | update _ _ _ _ => cases inserts
    | overwrite _ _ _ _ => cases inserts
  | disordered plan _ _ advance disorder =>
    exact absurd (ordered_advance (planned_of_plan plan) ordered advance) disorder
  | advanced _ _ _ _ _ => cases failed

end

/-- A step makes one call at most.  If it does not succeed, then its counters
are as before.  An error follows one call: that call itself ended with the
error, of which nothing is noted or measured, or it had an answer other than
expected, of which there is one note, one alarm and one sample.  A crash comes
before the call, of the table, or of the counter of inserted keys behind the
last one, and is reported nowhere.  The next value is taken by calls that write
one, and by nothing else. -/
theorem step_reports_once {σ : Type} (host : Host σ) (s : σ) (w : Worker)
    (ordered : w.window.erased ≤ w.window.inserted) (op slot : UInt64) (kind : OpKind)
    (ops : UInt64) : let played := host.play .goOn ((step op slot kind ops).start w) s
    let calls := played.events.filterMap Event.call?
    let notes := played.events.filterMap Event.note?
    let alarms := played.events.filterMap Event.alarm?
    ∃ result w', played.result? = some (result, w') ∧ calls.length ≤ 1 ∧
      (result ≠ .ok () → w'.window = w.window) ∧
      (∀ e, result = .error (.error e) → ∃ call reply, calls = [(call, reply)] ∧
        ((∃ cause, reply.outcome = .error (.error cause) ∧ e = .table cause ∧
            notes = [] ∧ alarms = [] ∧ w'.samples = w.samples) ∨
          ∃ answer, reply.outcome = .ok answer ∧ answer.holds ≠ w.expects op slot kind ops ∧
            e = .mismatch (w.mismatchOf op slot kind ops answer.holds) ∧
            notes = [.mismatch (w.mismatchOf op slot kind ops answer.holds) w.window] ∧
            notes.map Note.level = [.error] ∧ alarms = [e] ∧
            w'.samples = w.samples.map fun h => h.record reply.micros.toNat)) ∧
      (∀ c, result = .error (.crash c) → notes = [] ∧ alarms = [] ∧
        (calls = [] ∧ w'.values = w.values ∧ Hindered w op slot kind ops c ∨
          ∃ call reply, calls = [(call, reply)] ∧
            (reply.outcome = .error (.crash c) ∨
              c = .sumTooLarge ∧ w.Adds op slot kind ∧ w.window.inserted.toNat = 2 ^ 64 - 1 ∧
                (∃ key value, call = .insert key value) ∧
                ∃ answer, reply.outcome = .ok answer ∧ answer.holds = true))) ∧
      if kind.writes ∧ calls ≠ [] then ∃ value, w.values.next = .ok (value, w'.values)
      else w'.values = w.values := by
  intro played calls notes alarms
  obtain ⟨events, ⟨result, w'⟩, s', play, runs, -⟩ :=
    host.exists_play ((step op slot kind ops).start w) s
  have events_eq : played.events = events := congrArg Performance.events play
  have stepped := stepped_of_runs runs
  refine ⟨result, w', congrArg Performance.result? play, ?_⟩
  simp only [calls, notes, alarms, events_eq]
  refine ⟨stepped.length_calls_le, stepped.window_eq ordered, fun e failed => ?_,
    fun c failed => ?_, stepped.next_values⟩
  · obtain ⟨call, reply, once, report⟩ := stepped.reported failed
    refine ⟨call, reply, once, report.imp_right ?_⟩
    rintro ⟨answer, outcome, miss, same, noted, alarmed, sampled⟩
    exact ⟨answer, outcome, miss, same, noted, by rw [noted]; rfl, alarmed, sampled⟩
  · obtain ⟨noted, alarmed, cause⟩ := stepped.crashed ordered failed
    refine ⟨noted, alarmed, cause.imp_left ?_⟩
    rintro ⟨uncalled, hindered⟩
    have values := stepped.next_values
    rw [uncalled, if_neg fun h => h.2 rfl] at values
    exact ⟨uncalled, values, hindered⟩

/-- A table that refuses to insert the first key. -/
theorem step_reports_once_refused_insert :
    let host : Host Unit := ⟨fun _ _ s => (⟨.ok (.changed false), 5⟩, s), id⟩
    let w : Worker := ofThread 0 0 ⟨1, 8, by decide, by decide⟩ (.ofSeed 8 0) true
    let played := host.play .goOn ((step 0 0 .insert 1).start w) ()
    w.window.erased ≤ w.window.inserted ∧ ∃ result w', played.result? = some (result, w') ∧
      (played.events.filterMap Event.call?).length ≤ 1 ∧
          (result ≠ .ok () → w'.window = w.window) := by
  intro host w played
  have ordered : w.window.erased ≤ w.window.inserted := by decide
  obtain ⟨result, w', ends, once, window, -⟩ := step_reports_once host () w ordered 0 0 .insert 1
  exact ⟨ordered, result, w', ends, once, window⟩

/-- A step can crash without a call although there are operations and its key
has a number: the value to be written can be too long to exist. -/
theorem step_crashes_with_key :
    let host : Host Unit := ⟨fun _ _ s => (⟨.ok (.changed false), 5⟩, s), id⟩
    let w : Worker := ofThread 0 0 ⟨1, 8, by decide, by decide⟩ (.ofSeed (2 ^ 63) 0) false
    let played := host.play .goOn ((step 0 0 .update 1).start w) ()
    w.window.erased ≤ w.window.inserted ∧ (1 : UInt64) ≠ 0 ∧
      (∃ key, w.key (w.seqOf 0 0 .update 1) = .ok key) ∧
      played.result? = some (.error (.crash .lengthTooLarge), w) ∧
      played.events.filterMap Event.call? = [] := by
  intro host w played
  exact ⟨by decide, by decide, ⟨_, rfl⟩, by rfl, by rfl⟩

end TableProbe.Worker
