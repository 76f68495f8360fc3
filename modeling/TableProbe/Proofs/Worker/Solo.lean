import TableProbe.Proofs.Table.Shares
import TableProbe.Proofs.Worker.InRange

/-!
# A worker on a perfect table

On a table that does what it should and holds the keys within the worker's
window, every operation ends as expected, as long as no key overflows: the
worker adds the keys that it is to add, does its replay to the end, and its
window stays right about the table.
-/

namespace TableProbe

/-- The event is a call of the table. -/
def Event.isCall (e : Event) : Bool := e.call?.isSome

/-- The event is a call that adds a key. -/
def Event.isInsert (e : Event) : Bool := e.call?.any fun answered => answered.1.isInsert

namespace Worker

/-! ## Filling -/

section

variable {keys : KeySpace} {thread seq : UInt64} {values values' : ValueSource} {count : Nat}
  {events : List Event} {result : Except (Failure WorkError) Unit} {c c' : Contents}

/-- A worker that fills an empty part of a perfect table adds all that it is to
add. -/
theorem fillFrom_solo (sizes : keys.size < 2 ^ 63 ∧ values.size < 2 ^ 63)
    (bound : seq.toNat + count < 2 ^ 64)
    (fit : ∀ i < seq.toNat + count, keys.numberAt thread i < 2 ^ 64)
    (fills : c.Fills keys thread 0 seq.toNat)
    (filling : Filling keys thread count seq values events result values')
    (answers : Contents.machine.Answers events c c') :
    result = .ok () ∧ c'.Fills keys thread 0 (seq.toNat + count) ∧ events.length = count ∧
      ∀ e ∈ events, e.isInsert = true := by
  induction filling generalizing c with
  | finished =>
    obtain rfl : c' = c := answers
    refine ⟨rfl, fills, rfl, ?_⟩
    intro e he
    cases he
  | @keyless count seq values _ hkey =>
    have key := keys.key_eq_ok_iff.2 ⟨fit seq.toNat (by omega), sizes.1, rfl⟩
    rw [hkey] at key
    cases key
  | valueless hvalue =>
    have drawn := ValueSource.next_eq_ok_iff.2 ⟨sizes.2, rfl, rfl⟩
    rw [hvalue] at drawn
    cases drawn
  | refused _ _ failed =>
    rw [answers.1] at failed
    cases failed
  | @mismatched count seq _ _ key value _ _ hkey _ answered miss =>
    obtain ⟨fits, -, rfl⟩ := keys.key_eq_ok_iff.1 hkey
    have added :
        (Contents.answer (.insert (keys.keyAt thread seq.toNat) value) c).1.holds = true :=
      (fills.marks fun i below => fit i (by omega)).holds_insert fits
    rw [answers.1] at answered
    injection answered with answered
    rw [← answered, added] at miss
    cases miss
  | @added count seq _ _ _ _ value _ _ _ _ hkey hvalue _ _ _ ih =>
    obtain ⟨-, -, rfl⟩ := keys.key_eq_ok_iff.1 hkey
    have size := (ValueSource.next_eq_ok hvalue).2
    have next := toNat_next bound
    have filled :
        (Contents.answer (.insert (keys.keyAt thread seq.toNat) value) c).2.Fills keys thread 0
        (seq + 1).toNat := next ▸ fills.insert (Nat.zero_le _)
    obtain ⟨done, fills', lengths, inserts⟩ := ih ⟨sizes.1, size ▸ sizes.2⟩ (by omega)
      (fun i below => fit i (by omega)) filled answers.2
    rw [next, Nat.add_right_comm] at fills'
    refine ⟨done, fills', congrArg Nat.succ lengths, ?_⟩
    intro e he
    rcases List.mem_cons.1 he with rfl | he
    · rfl
    · exact inserts e he

end

/-! ## Replaying -/

/-- All keys that a worker can come to with `n` more operations, in a run of
`ops` ones, exist, and so do its values. -/
structure Roomy (w : Worker) (ops : UInt64) (n : Nat) : Prop extends InReach w ops n where
  sizes : w.keys.size < 2 ^ 63 ∧ w.values.size < 2 ^ 63
  bound : w.window.inserted.toNat + n < 2 ^ 64

/-- The worker did `n` operations as it had to, with these events, and knows
what is left. -/
structure Succeeds (w : Worker) (n : Nat) (events : List Event)
    (result : Except (Failure WorkError) Unit) (w' : Worker) (c : Contents) : Prop where
  result : result = .ok ()
  length_eq : events.length = n
  calls : ∀ e ∈ events, e.isCall = true
  thread : w'.thread = w.thread
  keys : w'.keys = w.keys
  describes : w'.window.Describes c w'.keys w'.thread

section

variable {w w' : Worker} {schedule : Schedule} {ops op slot : UInt64} {kind : OpKind} {k n : Nat}
  {events : List Event} {result : Except (Failure WorkError) Unit} {c c' : Contents}

/-- The room that there is for one operation more is room enough for those
after it. -/
theorem Roomy.after {window : Window} {probe : Probe} (reply : Reply) (room : w.Roomy ops (n + 1))
    (planned : Planned w op slot kind ops probe)
    (advance : w.window.advance probe.move = .ok window) :
    ({ w.answered probe reply with window } : Worker).Roomy ops n := by
  have moved := Window.inserted_le_of_advance advance
  refine ⟨room.toInReach.after reply advance, ⟨room.sizes.1, ?_⟩, ?_⟩
  · rw [answered_values, planned.size_values]
    exact room.sizes.2
  · have bound := room.bound
    dsimp only
    omega

/-- One step on a perfect table: its call is answered as expected, so it raises
no alarm, and the window describes the contents as before. -/
theorem step_solo (describes : w.window.Describes c w.keys w.thread) (room : w.Roomy ops (n + 1))
    (some_ops : ops ≠ 0) (regular : kind = .upsert → w.Adds op slot kind)
    (runs : ((step op slot kind ops).start w).Runs events (result, w'))
    (answers : Contents.machine.Answers events c c') :
    w.Succeeds 1 events result w' c' ∧ w'.Roomy ops n := by
  cases stepped_of_runs runs with
  | unplanned plan =>
    have long :=
      (hindered_of_plan plan).long some_ops (seqOf_fits room.toInReach describes.ordered some_ops)
    exact absurd (short_of_sizes room.sizes) long.2
  | refused plan refused =>
    rw [answers.1] at refused
    cases refused
  | mismatched plan answered miss =>
    rw [answers.1] at answered
    injection answered with answered
    exact absurd (answered ▸ holds_eq_expected describes (planned_of_plan plan) regular) miss
  | overflown plan _ _ full =>
    have limit := (isInsert_of_overflow (planned_of_plan plan) full).2
    have bound := room.bound
    omega
  | disordered plan _ _ advance disorder =>
    exact absurd (describes_advance describes (planned_of_plan plan) advance).ordered disorder
  | @advanced probe reply answer window plan answered hit advance ordered =>
    have planned := planned_of_plan plan
    rcases answers with ⟨-, after⟩
    obtain rfl : c' = (Contents.answer probe.call c).2 := after
    have moved := describes_advance describes planned advance
    refine ⟨⟨rfl, rfl, ?_, rfl, rfl, moved⟩, room.after reply planned advance⟩
    intro e he
    obtain rfl := List.mem_singleton.1 he
    rfl

/-- A replay on a perfect table goes on to its end.  By induction on the number
of operations, with the window that describes the contents as the invariant. -/
theorem steps_solo (describes : w.window.Describes c w.keys w.thread) (room : w.Roomy ops n)
    (bound : k + n ≤ ops.toNat)
    (runs : ((steps schedule ops k n).start w).Runs events (result, w'))
    (answers : Contents.machine.Answers events c c') : w.Succeeds n events result w' c' := by
  induction n generalizing k w c events with
  | zero =>
    obtain ⟨rfl, same⟩ := Script.runs_done_iff.1 runs
    cases same
    obtain rfl : c' = c := answers
    refine ⟨rfl, rfl, ?_, rfl, rfl, describes⟩
    intro e he
    cases he
  | succ n ih =>
    have small : k < 2 ^ 64 := Nat.lt_trans (by omega) ops.toNat_lt
    have some_ops : ops ≠ 0 := by
      rintro rfl
      cases bound
    rw [steps, Task.start_bind] at runs
    obtain ⟨first, ⟨r₁, w₁⟩, later, rfl, head, tail⟩ := Script.runs_bind_iff.1 runs
    obtain ⟨mid, answers₁, answers₂⟩ := Machine.answers_append_iff.1 answers
    obtain ⟨here, room₁⟩ := step_solo describes room some_ops (adds_of_upsert small) head answers₁
    obtain rfl := here.result
    have rest := ih here.describes room₁ (by omega) tail answers₂
    refine ⟨rest.result, ?_, ?_, rest.thread.trans here.thread, rest.keys.trans here.keys,
      rest.describes⟩
    · rw [List.length_append, here.length_eq, rest.length_eq, Nat.add_comm]
    · intro e he
      rcases List.mem_append.1 he with he | he
      · exact here.calls e he
      · exact rest.calls e he

end

end Worker

end TableProbe
