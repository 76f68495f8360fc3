import Mathlib.Data.Finset.Lattice.Fold
import Mathlib.Order.Lattice.Nat
import TableProbe.Proofs.Schedule
import TableProbe.Proofs.Table.Correct
import TableProbe.Proofs.Worker.Evenness
import TableProbe.Proofs.Worker.Solo

/-!
# The course of a replay

A replay that succeeds has moved its counters on as the schedule has it,
whatever the table is.  The counter of inserted keys went up with every
operation that adds one.  The counter of erased keys went up with every erase
that found a key left, so it is a walk that is held down by the other counter;
`Schedule.erasedAt_eq_min` gives it in closed form, as a minimum over all the
places where it may have been held down last.  The calls are counted by what
they ask of the table (`Worker.replay_counts_calls`).
-/

namespace TableProbe

/-! ## What calls ask for -/

/-- What a call asks of the table, whatever the key is. -/
inductive Verb
  | init
  | insert
  | read
  | update
  | erase
  deriving DecidableEq

/-- What a call asks for. -/
def Call.verb : Call → Verb
  | init => .init
  | insert .. => .insert
  | read _ => .read
  | update .. => .update
  | erase _ => .erase

theorem Call.verb_of_isInsert {call : Call} (inserts : call.isInsert = true) :
    call.verb = .insert := by
  cases call with
  | insert key value => rfl
  | init => cases inserts
  | read key => cases inserts
  | update key value => cases inserts
  | erase key => cases inserts

/-- What an operation of a replay asks for. -/
def OpKind.verb : OpKind → Verb
  | read => .read
  | insert | upsert => .insert
  | erase => .erase
  | update => .update

namespace Schedule

variable (s : Schedule)

/-- How many of the first operations ask for something. -/
def calls (verb : Verb) (ops : Nat) : Nat :=
  (List.range ops).countP fun k => (s.kindAt k).verb = verb

theorem calls_succ (verb : Verb) (k : Nat) :
    s.calls verb (k + 1) = s.calls verb k + if (s.kindAt k).verb = verb then 1 else 0 := by
  rw [calls, List.range_succ, List.countP_append, List.countP_singleton]
  simp only [decide_eq_true_eq]
  rfl

/-! ## Whole rounds -/

theorem kindAt_add_round (q k : Nat) : s.kindAt (100 * q + k) = s.kindAt k := by
  unfold kindAt
  congr 2
  omega

theorem map_kindAt_range : (List.range 100).map s.kindAt = s.slots.toList := by
  refine List.ext_getElem (by simp) fun k h _ => ?_
  rw [List.length_map, List.length_range] at h
  simp only [List.getElem_map, List.getElem_range, kindAt, Nat.mod_eq_of_lt h,
    Vector.getElem_toList]
  rfl

/-- In whole rounds every kind of call comes up as often as the slots have it,
times the number of rounds. -/
theorem calls_rounds (verb : Verb) (q : Nat) :
    s.calls verb (100 * q) = q * s.slots.toList.countP fun kind => kind.verb = verb := by
  induction q with
  | zero => rw [Nat.zero_mul]; rfl
  | succ q ih =>
    have round : s.calls verb 100 = s.slots.toList.countP fun kind => kind.verb = verb := by
      rw [← map_kindAt_range, List.countP_map]
      rfl
    have split : s.calls verb (100 * q + 100) = s.calls verb (100 * q) + s.calls verb 100 := by
      rw [calls, List.range_add, List.countP_append, List.countP_map]
      simp only [calls, Function.comp_def, kindAt_add_round]
    rw [Nat.mul_add_one, split, ih, round, Nat.succ_mul]

/-- Kinds ask for what they are called after, but upserts ask for an insert: a
replay never comes to one that overwrites. -/
theorem countP_verb (kinds : List OpKind) :
    (kinds.countP fun kind => kind.verb = .insert) = kinds.count .insert + kinds.count .upsert ∧
      (kinds.countP fun kind => kind.verb = .erase) = kinds.count .erase ∧
      (kinds.countP fun kind => kind.verb = .read) = kinds.count .read ∧
      (kinds.countP fun kind => kind.verb = .update) = kinds.count .update := by
  induction kinds with
  | nil => exact ⟨rfl, rfl, rfl, rfl⟩
  | cons kind kinds ih =>
    obtain ⟨inserts, erases, reads, updates⟩ := ih
    simp only [List.countP_cons, List.count_cons, inserts, erases, reads, updates]
    cases kind <;> simp [OpKind.verb] <;> omega

/-- A schedule that is drawn has the shares that are asked for, since drawing
it only reorders the slots that were laid out. -/
theorem count_of_draw {s : Schedule} {p : Percentages} {g rest : Generator}
    (h : draw p g = (.ok s, rest)) (kind : OpKind) : s.count kind = (p.of kind).toNat := by
  have enough : p.total = .ok 100 := by
    unfold draw at h
    split at h
    · cases h
    · rename_i total sum
      by_cases enough : total = 100
      · rw [sum, enough]
      · rw [dif_neg enough] at h
        cases h
  obtain ⟨t, reordered, -, -, count_eq⟩ := reordered_eq (unshuffled p enough) g
  rw [draw_eq_ok enough, reordered] at h
  cases h
  rw [count_eq, count_unshuffled]

/-! ## The counters -/

/-- How many keys were inserted when so many operations were done, of which
some were there before. -/
def insertedAt (filled ops : Nat) : Nat := filled + s.calls .insert ops

/-- How many keys were erased when so many operations were done: an erase that
finds none left erases none. -/
def erasedAt (filled : Nat) : Nat → Nat
  | 0 => 0
  | k + 1 =>
    if s.kindAt k = .erase ∧ erasedAt filled k < s.insertedAt filled k then erasedAt filled k + 1
    else erasedAt filled k

variable (filled : Nat)

theorem insertedAt_succ (k : Nat) :
    s.insertedAt filled (k + 1) =
      s.insertedAt filled k + if (s.kindAt k).verb = .insert then 1 else 0 := by
  rw [insertedAt, calls_succ, ← Nat.add_assoc, ← insertedAt]

/-- No more keys are erased than were inserted: an erase that finds none left
erases none. -/
theorem erasedAt_le_insertedAt (k : Nat) : s.erasedAt filled k ≤ s.insertedAt filled k := by
  induction k with
  | zero => exact Nat.zero_le _
  | succ k ih =>
    rw [erasedAt, insertedAt_succ]
    split <;> omega

theorem calls_erase_succ (k : Nat) :
    s.calls .erase (k + 1) = s.calls .erase k + if s.kindAt k = .erase then 1 else 0 := by
  rw [calls_succ]
  cases s.kindAt k <;> rfl

theorem calls_le_calls (verb : Verb) {j k : Nat} (h : j ≤ k) :
    s.calls verb j ≤ s.calls verb k := by
  induction h with
  | refl => exact Nat.le_refl _
  | step _ ih =>
    rw [calls_succ]
    omega

/-- No erase removes more than one key. -/
theorem erasedAt_add_le {j k : Nat} (h : j ≤ k) :
    s.erasedAt filled k + s.calls .erase j ≤ s.erasedAt filled j + s.calls .erase k := by
  induction h with
  | refl => exact Nat.le_refl _
  | @step k _ ih =>
    rw [erasedAt, calls_erase_succ]
    by_cases erases : s.kindAt k = .erase
    · simp only [erases, true_and, if_true]
      split <;> omega
    · simp only [erases, false_and, if_false]
      omega

/-- Either every erase removed a key, or all keys were gone at some time, and
every erase since then removed one. -/
theorem erasedAt_attained (k : Nat) :
    s.erasedAt filled k = s.calls .erase k ∨
      ∃ j ≤ k, s.erasedAt filled k = s.insertedAt filled j +
        (s.calls .erase k - s.calls .erase j) := by
  induction k with
  | zero => exact .inl rfl
  | succ k ih =>
    rw [erasedAt, calls_erase_succ]
    by_cases erases : s.kindAt k = .erase
    · simp only [erases, true_and, if_true]
      by_cases left : s.erasedAt filled k < s.insertedAt filled k
      · rw [if_pos left]
        refine ih.imp (fun all => by rw [all]) ?_
        rintro ⟨j, before, held⟩
        have mono := s.calls_le_calls .erase before
        exact ⟨j, Nat.le_succ_of_le before, by omega⟩
      · -- this erase finds nothing left, so the counters meet here
        rw [if_neg left]
        have meet := Nat.le_antisymm (s.erasedAt_le_insertedAt filled k) (Nat.le_of_not_lt left)
        have same : s.insertedAt filled (k + 1) = s.insertedAt filled k := by
          rw [insertedAt_succ, erases]
          rfl
        refine .inr ⟨k + 1, Nat.le_refl _, ?_⟩
        rw [calls_erase_succ, if_pos erases, Nat.sub_self, Nat.add_zero, same, meet]
    · simp only [erases, false_and, if_false, Nat.add_zero]
      refine ih.imp id ?_
      rintro ⟨j, before, held⟩
      exact ⟨j, Nat.le_succ_of_le before, held⟩

/-- The number of erased keys in closed form.  An erase that finds none left is
lost for good, so the operations where that happens hold the number down: it is
a minimum over all prefixes. -/
theorem erasedAt_eq_min (k : Nat) :
    s.erasedAt filled k =
      min (s.calls .erase k)
        ((Finset.range (k + 1)).inf' ⟨0, Finset.mem_range.2 k.succ_pos⟩ fun j =>
          filled + s.calls .insert j + (s.calls .erase k - s.calls .erase j)) := by
  apply Nat.le_antisymm
  -- after each prefix no more keys can have been erased than were inserted by then
  · refine Nat.le_min.2 ⟨?_, Finset.le_inf' _ _ fun j hj => ?_⟩
    · have all := s.erasedAt_add_le filled (Nat.zero_le k)
      have none : s.erasedAt filled 0 = 0 := rfl
      omega
    · have before : j ≤ k := Nat.le_of_lt_succ (Finset.mem_range.1 hj)
      have since := s.erasedAt_add_le filled before
      have held := s.erasedAt_le_insertedAt filled j
      have mono := s.calls_le_calls .erase before
      rw [insertedAt] at held
      omega
  -- and that bound is reached at the last operation that found no key left
  · rcases s.erasedAt_attained filled k with all | ⟨j, before, held⟩
    · exact all ▸ Nat.min_le_left _ _
    · rw [held]
      exact Nat.le_trans (Nat.min_le_right _ _)
        (Finset.inf'_le _ (Finset.mem_range.2 (Nat.lt_succ_of_le before)))

end Schedule

/-! ## Workers on their course -/

/-- The counters are where so many operations take them. -/
structure Window.OnCourse (window : Window) (schedule : Schedule) (filled ops : Nat) : Prop where
  inserted : window.inserted.toNat = schedule.insertedAt filled ops
  erased : window.erased.toNat = schedule.erasedAt filled ops

namespace Worker

variable {w w' : Worker} {schedule : Schedule} {ops : UInt64} {kind : OpKind} {filled k n : Nat}
  {probe : Probe} {window : Window} {events : List Event}

/-- An operation of a replay makes the call that it is for. -/
theorem verb_of_planned (bound : k < 2 ^ 64)
    (planned : Planned w (.ofNat k) (.ofNat (k % 100)) kind ops probe) :
    probe.call.verb = kind.verb := by
  cases planned with
  | read hkind _ _ => rw [hkind]; rfl
  | insert adds _ _ =>
    rcases adds with rfl | ⟨rfl, -⟩
    · rfl
    · rfl
  | erase hkind _ => rw [hkind]; rfl
  | update hkind _ _ _ => rw [hkind]; rfl
  | overwrite hkind skips _ _ => exact absurd (adds_of_upsert bound hkind) skips

/-- An answer as expected keeps the counters on their course.  An erase moves
its counter only if a key is left, which is the same question for the counters
and for the schedule. -/
theorem onCourse_advance (course : w.window.OnCourse schedule filled k) (bound : k < 2 ^ 64)
    (planned : Planned w (.ofNat k) (.ofNat (k % 100)) (schedule.kindAt k) ops probe)
    (advance : w.window.advance probe.move = .ok window) :
    window.OnCourse schedule filled (k + 1) := by
  suffices moved : window.inserted.toNat = schedule.insertedAt filled (k + 1) ∧
      window.erased.toNat = schedule.erasedAt filled (k + 1) from ⟨moved.1, moved.2⟩
  rcases course with ⟨inserted, erased⟩
  rw [Schedule.insertedAt_succ, Schedule.erasedAt, ← inserted, ← erased,
    ← verb_of_planned bound planned]
  cases planned with
  | read hkind _ _ =>
    cases advance
    simp [hkind, Call.verb]
  | insert adds _ _ =>
    obtain ⟨m, hm, rfl⟩ := Window.advance_eq_ok_iff.1 advance
    have keeps : schedule.kindAt k ≠ .erase := by
      rcases adds with hkind | ⟨hkind, -⟩
      · rw [hkind]; decide
      · rw [hkind]; decide
    simp [hm, keeps, Call.verb]
  | erase hkind _ =>
    by_cases left : w.window.erased < w.window.inserted
    · rw [if_pos left] at advance
      rw [UInt64.lt_iff_toNat_lt] at left
      obtain ⟨m, hm, rfl⟩ := Window.advance_eq_ok_iff.1 advance
      simp [hm, hkind, left, Call.verb]
    · rw [if_neg left] at advance
      rw [UInt64.lt_iff_toNat_lt] at left
      cases advance
      simp [hkind, left, Call.verb]
  | update hkind _ _ _ =>
    cases advance
    simp [hkind, Call.verb]
  | overwrite hkind skips _ _ => exact absurd (adds_of_upsert bound hkind) skips

/-- A replay that succeeds keeps the counters on their course, and makes the
calls that its operations are for. -/
theorem course_of_steps (course : w.window.OnCourse schedule filled k) (bound : k + n ≤ 2 ^ 64)
    (runs : ((steps schedule ops k n).start w).Runs events (.ok (), w')) :
    w'.window.OnCourse schedule filled (k + n) ∧
      ((events.filterMap Event.call?).map fun answered => answered.1.verb) =
        (List.range' k n).map fun j => (schedule.kindAt j).verb := by
  induction n generalizing k w events with
  | zero =>
    obtain ⟨rfl, same⟩ := Script.runs_done_iff.1 runs
    cases same
    exact ⟨course, rfl⟩
  | succ n ih =>
    rw [steps] at runs
    rcases Task.runs_bind_iff.1 runs with ⟨e, failed, -⟩ | ⟨u, mid, first, later, rfl, head, tail⟩
    · cases failed
    · obtain ⟨_, _, _, _, plan, -, -, advance, -, rfl, rfl⟩ := advanced_of_runs head
      have planned := planned_of_plan plan
      obtain ⟨course', verbs⟩ :=
        ih (onCourse_advance course (by omega) planned advance) (by omega) tail
      rw [Nat.succ_add_eq_add_succ] at course'
      refine ⟨course', ?_⟩
      rw [List.filterMap_append, List.map_append, verbs, List.range'_succ, List.map_cons,
        ← verb_of_planned (by omega) planned]
      rfl

/-- The counters and the calls of a replay that succeeds, on any table at all. -/
theorem replay_counts_calls {σ : Type} (host : Host σ) (policy : AlarmPolicy) (s : σ)
    (thread filled : UInt64) (keys : KeySpace) (values : ValueSource) (latency : Bool)
    (schedule : Schedule) (ops : UInt64) (w' : Worker)
    (ok : (host.play policy
      ((replay schedule ops).start (ofThread thread filled keys values latency)) s).result? =
      some (.ok (), w')) :
    let played :=
  host.play policy ((replay schedule ops).start (ofThread thread filled keys values latency)) s
    let calls (verb : Verb) := (played.events.filterMap Event.call?).countP fun answered =>
      answered.1.verb = verb
    let inserts := schedule.calls .insert
    let erases := schedule.calls .erase
    w'.window.inserted.toNat = filled.toNat + inserts ops.toNat ∧
      w'.window.erased.toNat = min (erases ops.toNat)
        ((Finset.range (ops.toNat + 1)).inf' ⟨0, Finset.mem_range.2 ops.toNat.succ_pos⟩
          fun m => filled.toNat + inserts m + (erases ops.toNat - erases m)) ∧
      (∀ verb, calls verb = schedule.calls verb ops.toNat) ∧
      (∀ q, ops.toNat = 100 * q →
        calls .insert = q * (schedule.count .insert + schedule.count .upsert) ∧
        calls .erase = q * schedule.count .erase ∧
        calls .read = q * schedule.count .read ∧
        calls .update = q * schedule.count .update) ∧
      ∀ p g rest, Schedule.draw p g = (.ok schedule, rest) →
          ∀ kind, schedule.count kind = (p.of kind).toNat := by
  intro played calls inserts erases
  have begun :
    (ofThread thread filled keys values latency).window.OnCourse schedule filled.toNat 0 :=
    ⟨rfl, rfl⟩
  have runs : ((steps schedule ops 0 ops.toNat).start
      (ofThread thread filled keys values latency)).Runs played.events (.ok (), w') := by
    rw [← replay_eq_steps]
    exact host.runs_of_play ok
  have size : ops.toNat < 2 ^ 64 := ops.toNat_lt
  obtain ⟨course, verbs⟩ := course_of_steps begun (by omega) runs
  rw [Nat.zero_add] at course
  have counted (verb : Verb) : calls verb = schedule.calls verb ops.toNat := by
    have moved := congrArg (List.countP fun v => v = verb) verbs
    rw [List.countP_map, List.countP_map, ← List.range_eq_range'] at moved
    exact moved
  refine ⟨course.inserted, course.erased.trans (schedule.erasedAt_eq_min _ _), counted,
    fun q whole => ?_, fun p g rest drawn => Schedule.count_of_draw drawn⟩
  obtain ⟨inserts_eq, erases_eq, reads_eq, updates_eq⟩ :=
    Schedule.countP_verb schedule.slots.toList
  simp only [counted, whole, schedule.calls_rounds, inserts_eq, erases_eq, reads_eq, updates_eq]
  exact ⟨rfl, rfl, rfl, rfl⟩

/-- Two inserts with an erase between them. -/
theorem replay_counts_calls_insert_erase :
    let schedule : Schedule := ⟨.ofFn fun i => if i.val % 2 = 0 then .insert else .erase⟩
    let begun := ofThread 0 0 ⟨1, 8, by decide, by decide⟩ (.ofSeed 8 0) false
    let played :=
      (Host.ofTable Contents.table 0 id).play .goOn ((replay schedule 3).start begun) .empty
    ∃ w', played.result? = some (.ok (), w') ∧ w'.window.inserted.toNat = 2 ∧
        w'.window.erased.toNat = 1 := by
  intro schedule begun played
  obtain ⟨events, ⟨result, w'⟩, c', play, runs, answers⟩ :=
    (Host.ofTable Contents.table 0 id).exists_play ((replay schedule 3).start begun) .empty
  have perfect := ((Contents.correct 0 id).follows_perfect.answers trivial answers).1
  have describes : begun.window.Describes .empty begun.keys begun.thread :=
    ⟨by decide, by decide, .of_empty begun.keys 0 0⟩
  have room : begun.Roomy 3 3 := ⟨⟨by decide, by decide⟩, by decide, by decide⟩
  rw [replay_eq_steps] at runs
  obtain rfl := (steps_solo describes room (by decide) runs perfect).result
  have ends : played.result? = some (.ok (), w') := congrArg Performance.result? play
  obtain ⟨inserted, erased, -⟩ :=
    replay_counts_calls (Host.ofTable Contents.table 0 id) .goOn .empty 0 0
      ⟨1, 8, by decide, by decide⟩ (.ofSeed 8 0) false schedule 3 w' ends
  refine ⟨w', ends, inserted.trans ?_, erased.trans ?_⟩
  · decide
  · decide

end Worker

end TableProbe
