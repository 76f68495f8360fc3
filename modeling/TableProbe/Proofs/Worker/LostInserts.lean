import TableProbe.Proofs.Table.Lossy
import TableProbe.Proofs.Worker.Blame
import TableProbe.Proofs.Worker.Course

/-!
# What a worker notices of lost inserts

A worker cannot tell from the answer to an insert that the insert was lost.  It
finds out when it reads, updates or erases a lost key, and it finds out nothing
else: a replay on a table that keeps the first few inserts only stops at the
first operation that comes to a key behind them, and succeeds if there is none
(`Worker.lost_inserts_are_caught`).
-/

namespace TableProbe

namespace Schedule

/-- The place of the key that an operation of a replay concerns. -/
def placeAt (s : Schedule) (ops : UInt64) (filled k : Nat) : Nat :=
  match s.kindAt k with
  | .read | .update => (Worker.probed ops k).toNat
  | .insert | .upsert => s.insertedAt filled k
  | .erase => s.erasedAt filled k

/-- The operation looks for a key that is thought to be there, but is none of
the first ones that were kept. -/
def Misses (s : Schedule) (ops : UInt64) (filled keep k : Nat) : Prop :=
  match s.kindAt k with
  | .read | .update =>
    max keep (s.erasedAt filled k) ≤ (Worker.probed ops k).toNat ∧
      (Worker.probed ops k).toNat < s.insertedAt filled k
  | .erase => keep ≤ s.erasedAt filled k ∧ s.erasedAt filled k < s.insertedAt filled k
  | .insert | .upsert => False

instance (s : Schedule) (ops : UInt64) (filled keep k : Nat) :
    Decidable (s.Misses ops filled keep k) :=
  match h : s.kindAt k with
  | .read | .update =>
    decidable_of_iff (max keep (s.erasedAt filled k) ≤ (Worker.probed ops k).toNat ∧
      (Worker.probed ops k).toNat < s.insertedAt filled k) (by rw [Misses, h])
  | .erase =>
    decidable_of_iff (keep ≤ s.erasedAt filled k ∧ s.erasedAt filled k < s.insertedAt filled k)
      (by rw [Misses, h])
  | .insert | .upsert => isFalse (by rw [Misses, h]; exact id)

/-- No operation before this one misses its key. -/
def Reaches (s : Schedule) (ops : UInt64) (filled keep k : Nat) : Prop :=
  ∀ j < k, ¬ s.Misses ops filled keep j

instance (s : Schedule) (ops : UInt64) (filled keep k : Nat) :
    Decidable (s.Reaches ops filled keep k) :=
  inferInstanceAs (Decidable (∀ j < k, ¬ s.Misses ops filled keep j))

/-- The mismatch that is reported of an operation that misses its key. -/
def missAt (s : Schedule) (thread ops : UInt64) (filled k : Nat) : Mismatch where
  thread := thread
  kind := s.kindAt k
  seq := .ofNat (s.placeAt ops filled k)
  op := .ofNat k
  got := false
  expected := true

variable {s : Schedule} {ops thread : UInt64} {filled keep k : Nat}

theorem reaches_zero (s : Schedule) (ops : UInt64) (filled keep : Nat) :
    s.Reaches ops filled keep 0 := by
  intro j below
  cases below

theorem reaches_succ_iff :
    s.Reaches ops filled keep (k + 1) ↔ s.Reaches ops filled keep k ∧
      ¬ s.Misses ops filled keep k := by
  simp only [Reaches, Nat.forall_lt_succ_right]

theorem placeAt_of_insert (inserts : (s.kindAt k).verb = .insert) :
    s.placeAt ops filled k = s.insertedAt filled k := by
  unfold placeAt
  cases hkind : s.kindAt k with
  | insert => rfl
  | upsert => rfl
  | read => rw [hkind] at inserts; cases inserts
  | erase => rw [hkind] at inserts; cases inserts
  | update => rw [hkind] at inserts; cases inserts

/-- Among several threads the keys run out before the counter of inserted ones
does. -/
theorem insertedAt_lt {keys : KeySpace} (several : keys.threads ≠ 1) (start : filled < 2 ^ 64)
    (fit : ∀ j < k, s.Reaches ops filled keep j →
      keys.numberAt thread (s.placeAt ops filled j) < 2 ^ 64)
    (reaches : s.Reaches ops filled keep k) : s.insertedAt filled k < 2 ^ 64 := by
  have two_le : 2 ≤ keys.threads.toNat := by
    have some_thread := keys.toNat_threads_pos
    have one : keys.threads.toNat ≠ 1 := fun one => several (UInt64.toNat_inj.1 one)
    omega
  induction k with
  | zero => exact start
  | succ k ih =>
    have before := (reaches_succ_iff.1 reaches).1
    have least := ih (fun j below => fit j (Nat.lt_succ_of_lt below)) before
    rw [insertedAt_succ]
    by_cases inserts : (s.kindAt k).verb = .insert
    · have fits := fit k (Nat.lt_succ_self k) before
      rw [placeAt_of_insert inserts, KeySpace.numberAt] at fits
      have twice : s.insertedAt filled k * 2 ≤ s.insertedAt filled k * keys.threads.toNat :=
        Nat.mul_le_mul_left _ two_le
      rw [if_pos inserts]
      omega
    · rw [if_neg inserts]
      exact least

end Schedule

namespace Worker

section

variable {w w' : Worker} {schedule : Schedule} {ops : UInt64} {filled keep k made : Nat}
  {probe : Probe} {window : Window} {c : Contents}

/-- The table took the inserts of the worker, but kept the first few only. -/
structure Trusts (w : Worker) (keep made : Nat) (c : Contents) : Prop where
  made_eq : made = w.window.inserted.toNat
  marks : c.Marks w.keys w.thread w.window.erased.toNat (min keep w.window.inserted.toNat)

/-- As long as the counters are on course, the key of an operation can be told
from the schedule and the number of the operation. -/
theorem toNat_seqOf_of_onCourse (course : w.window.OnCourse schedule filled k)
    (bound : k < 2 ^ 64) :
    (w.seqOf (.ofNat k) (.ofNat (k % 100)) (schedule.kindAt k) ops).toNat =
      schedule.placeAt ops filled k := by
  unfold Schedule.placeAt
  cases hkind : schedule.kindAt k with
  | read => rfl
  | insert => exact course.inserted
  | erase => exact course.erased
  | update => rfl
  | upsert => rw [seqOf_of_adds (adds_of_upsert bound rfl), course.inserted]

theorem ordered_of_onCourse (course : w.window.OnCourse schedule filled k) :
    w.window.erased ≤ w.window.inserted := by
  rw [UInt64.le_iff_toNat_le, course.inserted, course.erased]
  exact schedule.erasedAt_le_insertedAt filled k

/-- A key that is missed was expected. -/
theorem expected_of_misses (course : w.window.OnCourse schedule filled k)
    (planned : Planned w (.ofNat k) (.ofNat (k % 100)) (schedule.kindAt k) ops probe)
    (misses : schedule.Misses ops filled keep k) : probe.expected = true := by
  unfold Schedule.Misses at misses
  rw [← course.inserted, ← course.erased] at misses
  rw [planned.expected_eq]
  cases hkind : schedule.kindAt k with
  | read =>
    rw [hkind] at misses
    rw [expects, contains_eq_decide, decide_eq_true_eq]
    exact ⟨Nat.le_trans (Nat.le_max_right _ _) misses.1, misses.2⟩
  | insert => rfl
  | erase =>
    rw [hkind] at misses
    rw [expects, decide_eq_true_eq]
    exact misses.2
  | update =>
    rw [hkind] at misses
    rw [expects, contains_eq_decide, decide_eq_true_eq]
    exact ⟨Nat.le_trans (Nat.le_max_right _ _) misses.1, misses.2⟩
  | upsert => rfl

/-- A lossy table denies the keys that it lost, and is right in all else: the
answer to an operation is as expected unless the operation misses its key. -/
theorem holds_lossy_iff (trusts : w.Trusts keep made c)
    (course : w.window.OnCourse schedule filled k) (bound : k < 2 ^ 64)
    (planned : Planned w (.ofNat k) (.ofNat (k % 100)) (schedule.kindAt k) ops probe) :
    (Contents.lossyAnswer keep made probe.call c).1.holds = probe.expected ↔
      ¬ schedule.Misses ops filled keep k := by
  have ordered : w.window.erased.toNat ≤ w.window.inserted.toNat := ordered_of_onCourse course
  rcases trusts with ⟨rfl, marks⟩
  unfold Schedule.Misses
  rw [← course.inserted, ← course.erased]
  cases planned with
  | read hkind hseq hkey =>
    obtain ⟨fits, -, rfl⟩ := w.keys.key_eq_ok_iff.1 hkey
    obtain ⟨-, rfl⟩ := Checked.rem_eq_ok_iff.1 hseq
    rw [Contents.lossyAnswer_of_not_insert rfl, marks.holds_read fits, contains_eq_decide,
      decide_eq_decide, hkind]
    dsimp only [probed]
    omega
  | @insert key value values adds hkey _ =>
    obtain ⟨fits, -, rfl⟩ := w.keys.key_eq_ok_iff.1 hkey
    have taken : (Contents.lossyAnswer keep w.window.inserted.toNat
        (.insert (w.keys.keyAt w.thread w.window.inserted.toNat) value) c).1.holds = true :=
      (marks.lossy_insert ordered fits).1
    rcases adds with hkind | ⟨hkind, -⟩
    · rw [hkind]
      exact iff_of_true taken id
    · rw [hkind]
      exact iff_of_true taken id
  | erase hkind hkey =>
    obtain ⟨fits, -, rfl⟩ := w.keys.key_eq_ok_iff.1 hkey
    rw [Contents.lossyAnswer_of_not_insert rfl, marks.holds_erase fits, decide_eq_decide, hkind]
    dsimp only
    rw [UInt64.lt_iff_toNat_lt]
    omega
  | update hkind hseq hkey _ =>
    obtain ⟨fits, -, rfl⟩ := w.keys.key_eq_ok_iff.1 hkey
    obtain ⟨-, rfl⟩ := Checked.rem_eq_ok_iff.1 hseq
    rw [Contents.lossyAnswer_of_not_insert rfl, marks.holds_update fits, contains_eq_decide,
      decide_eq_decide, hkind]
    dsimp only [probed]
    omega
  | overwrite hkind skips _ _ => exact absurd (adds_of_upsert bound hkind) skips

/-- A worker that got the answer it expected goes on to trust the table.  An
insert counts whether it was kept or lost, and calls about keys that were kept
are answered as if none was lost. -/
theorem trusts_advance (trusts : w.Trusts keep made c)
    (course : w.window.OnCourse schedule filled k) (bound : k < 2 ^ 64)
    (planned : Planned w (.ofNat k) (.ofNat (k % 100)) (schedule.kindAt k) ops probe)
    (advance : w.window.advance probe.move = .ok window) (reply : Reply) :
    ({ w.answered probe reply with window } : Worker).Trusts keep
      (if probe.call.isInsert then made + 1 else made)
        (Contents.lossyAnswer keep made probe.call c).2 := by
  have ordered : w.window.erased.toNat ≤ w.window.inserted.toNat := ordered_of_onCourse course
  rcases trusts with ⟨rfl, marks⟩
  cases planned with
  | read _ _ _ =>
    cases advance
    exact ⟨rfl, marks⟩
  | insert _ hkey _ =>
    obtain ⟨fits, -, rfl⟩ := w.keys.key_eq_ok_iff.1 hkey
    obtain ⟨n, hn, rfl⟩ := Window.advance_eq_ok_iff.1 advance
    refine ⟨hn.symm, ?_⟩
    dsimp only
    rw [hn]
    exact (marks.lossy_insert ordered fits).2
  | erase hkind hkey =>
    obtain ⟨fits, -, rfl⟩ := w.keys.key_eq_ok_iff.1 hkey
    rw [Contents.lossyAnswer_of_not_insert rfl]
    by_cases left : w.window.erased < w.window.inserted
    · rw [if_pos left] at advance
      obtain ⟨n, hn, rfl⟩ := Window.advance_eq_ok_iff.1 advance
      refine ⟨rfl, ?_⟩
      dsimp only
      rw [hn]
      exact marks.erase fits
    · rw [if_neg left] at advance
      cases advance
      rw [UInt64.lt_iff_toNat_lt] at left
      rw [marks.erase_nothing fits (by omega)]
      exact ⟨rfl, marks⟩
  | update _ _ hkey _ =>
    obtain ⟨fits, -, rfl⟩ := w.keys.key_eq_ok_iff.1 hkey
    cases advance
    rw [Contents.lossyAnswer_of_not_insert rfl]
    exact ⟨rfl, marks.update fits⟩
  | overwrite hkind skips _ _ => exact absurd (adds_of_upsert bound hkind) skips

end

/-! ## Filling -/

section

variable {σ : Type} {host : Host σ} {keys : KeySpace} {thread seq ops : UInt64}
  {count keep filled k n : Nat} {ready : σ → Prop} {contents : σ → Contents} {made : σ → Nat}
  {s s' : σ} {values values' : ValueSource} {w w' : Worker} {probe : Probe} {schedule : Schedule}
  {events : List Event} {r : Except (Failure WorkError) Unit}

/-- Filling goes on to its end, whatever is lost of it: an insert is answered
with yes even if it is lost, so nothing is noticed yet. -/
theorem ok_of_filling (loses : host.Loses thread keep ready contents made) (start : ready s)
    (short : count = 0 ∨ keys.size < 2 ^ 63 ∧ values.size < 2 ^ 63)
    (bound : seq.toNat + count < 2 ^ 64)
    (fit : ∀ i < seq.toNat + count, keys.numberAt thread i < 2 ^ 64)
    (made_eq : made s = seq.toNat) (marks : (contents s).Marks keys thread 0 (min keep seq.toNat))
    (filling : Filling keys thread count seq values events r values')
    (answers : host.machine.Answers events s s') :
    r = .ok () ∧ ready s' ∧ made s' = seq.toNat + count ∧
      (contents s').Marks keys thread 0 (min keep (seq.toNat + count)) := by
  induction filling generalizing s with
  | finished =>
    obtain rfl : s' = s := answers
    exact ⟨rfl, start, made_eq, marks⟩
  | @keyless count seq _ _ hkey =>
    have sizes := short.resolve_left (Nat.succ_ne_zero _)
    exact absurd sizes.1 (keys.long_of_key_eq_error (fit seq.toNat (by omega)) hkey).2
  | valueless hvalue =>
    have sizes := short.resolve_left (Nat.succ_ne_zero _)
    exact absurd sizes.2 (ValueSource.long_of_next_eq_error hvalue).2
  | refused _ _ failed =>
    cases (answers.1.trans (loses.answers start)).symm.trans failed
  | @mismatched count seq _ _ _ value _ _ hkey _ answered miss =>
    obtain ⟨fits, -, rfl⟩ := keys.key_eq_ok_iff.1 hkey
    obtain rfl := loses.answer_eq start answers.1 answered
    rw [made_eq, (marks.lossy_insert (Nat.zero_le _) fits).1] at miss
    cases miss
  | @added count seq values rest _ key value reply _ later _ hkey hvalue _ _ _ ih =>
    obtain ⟨fits, -, rfl⟩ := keys.key_eq_ok_iff.1 hkey
    have sizes := short.resolve_left (Nat.succ_ne_zero _)
    have size := (ValueSource.next_eq_ok hvalue).2
    have next := toNat_next bound
    have step : seq.toNat + 1 + count = seq.toNat + (count + 1) := by omega
    rw [next, step] at ih
    refine ih (loses.stays start) (.inr ⟨sizes.1, size ▸ sizes.2⟩) bound fit ?_ ?_ answers.2
    · exact (loses.counts start).trans (congrArg (· + 1) made_eq)
    · rw [loses.leaves start, made_eq]
      exact (marks.lossy_insert (Nat.zero_le _) fits).2

/-! ## Replaying -/

/-- The mismatch that is reported of a key that is missed. -/
theorem mismatch_eq_missAt (course : w.window.OnCourse schedule filled k) (bound : k < 2 ^ 64)
    (planned : Planned w (.ofNat k) (.ofNat (k % 100)) (schedule.kindAt k) ops probe)
    (misses : schedule.Misses ops filled keep k) :
    w.mismatch (.ofNat k) (schedule.kindAt k) probe false =
      schedule.missAt w.thread ops filled k := by
  have seq : probe.seq = .ofNat (schedule.placeAt ops filled k) := by
    rw [planned.seq_eq, ← toNat_seqOf_of_onCourse course bound, UInt64.ofNat_toNat]
  rw [mismatch, Schedule.missAt, seq, expected_of_misses course planned misses]

/-- How a replay ends after so many calls: they are all made, or it comes to an
operation that misses its key. -/
inductive Ends (schedule : Schedule) (thread ops : UInt64) (filled keep : Nat) (w' : Worker) :
    Nat → Except (Failure WorkError) Unit → Prop
  | all :
      schedule.Reaches ops filled keep ops.toNat → w'.window.OnCourse schedule filled ops.toNat →
      Ends schedule thread ops filled keep w' ops.toNat (.ok ())
  | missed {k : Nat} :
      k < ops.toNat → schedule.Reaches ops filled keep k → schedule.Misses ops filled keep k →
      w'.window.OnCourse schedule filled k →
      Ends schedule thread ops filled keep w' (k + 1)
        (.error (.error (.mismatch (schedule.missAt thread ops filled k))))

/-- How one operation ends: its key is missed, or the replay goes on with it. -/
inductive Found (schedule : Schedule) (thread ops : UInt64) (filled keep k : Nat) (w' : Worker)
    (trusts : Prop) : Except (Failure WorkError) Unit → Prop
  | missed :
      schedule.Misses ops filled keep k → w'.window.OnCourse schedule filled k →
      Found schedule thread ops filled keep k w' trusts
        (.error (.error (.mismatch (schedule.missAt thread ops filled k))))
  | found :
      ¬ schedule.Misses ops filled keep k → w'.window.OnCourse schedule filled (k + 1) → trusts →
      Found schedule thread ops filled keep k w' trusts (.ok ())

/-- An operation makes one call, and finds its key unless that was lost.  Then
the mismatch is noted, the alarm is raised, and the replay is over. -/
theorem found_of_stepped (loses : host.Loses w.thread keep ready contents made) (start : ready s)
    (trusts : w.Trusts keep (made s) (contents s)) (course : w.window.OnCourse schedule filled k)
    (bound : k < ops.toNat) (short : w.Short (schedule.kindAt k))
    (fits : w.keys.numberAt w.thread (schedule.placeAt ops filled k) < 2 ^ 64)
    (room : ¬ schedule.Misses ops filled keep k → schedule.insertedAt filled (k + 1) < 2 ^ 64)
    (stepped : Stepped w (.ofNat k) (.ofNat (k % 100)) (schedule.kindAt k) ops events r w')
    (answers : host.machine.Answers events s s') :
    (events.filterMap Event.call?).length = 1 ∧
      Found schedule w.thread ops filled keep k w'
        (ready s' ∧ w'.Trusts keep (made s') (contents s') ∧ w'.values.size = w.values.size)
          r := by
  have small : k < 2 ^ 64 := Nat.lt_trans bound ops.toNat_lt
  have some_ops : ops ≠ 0 := by
    rintro rfl
    cases bound
  cases stepped with
  | unplanned plan =>
    rw [← toNat_seqOf_of_onCourse course small] at fits
    exact absurd short ((hindered_of_plan plan).long some_ops fits).2
  | refused _ refused => cases (answers.1.trans (loses.answers start)).symm.trans refused
  | mismatched plan answered miss =>
    have planned := planned_of_plan plan
    obtain rfl := loses.answer_eq start answers.1 answered
    have misses : schedule.Misses ops filled keep k :=
      not_not.1 fun found => miss ((holds_lossy_iff trusts course small planned).2 found)
    rw [expected_of_misses course planned misses, ne_eq, Bool.not_eq_true] at miss
    rw [miss, mismatch_eq_missAt course small planned misses]
    exact ⟨rfl, .missed misses course⟩
  | overflown plan answered hit full =>
    have planned := planned_of_plan plan
    obtain rfl := loses.answer_eq start answers.1 answered
    have found := (holds_lossy_iff trusts course small planned).1 hit
    obtain ⟨inserts, limit⟩ := isInsert_of_overflow planned full
    have grows : (schedule.kindAt k).verb = .insert :=
      (verb_of_planned small planned).symm.trans (Call.verb_of_isInsert inserts)
    have room := room found
    rw [schedule.insertedAt_succ, if_pos grows, ← course.inserted] at room
    exact absurd limit (Nat.not_le.2 room)
  | disordered plan _ _ advance disorder =>
    exact absurd (ordered_advance (planned_of_plan plan) (ordered_of_onCourse course) advance)
      disorder
  | @advanced _ reply _ _ plan answered hit advance _ =>
    have planned := planned_of_plan plan
    obtain rfl := loses.answer_eq start answers.1 answered
    have found := (holds_lossy_iff trusts course small planned).1 hit
    obtain rfl : s' = _ := answers.2
    refine ⟨rfl, .found found (onCourse_advance course small planned advance)
      ⟨loses.stays start, ?_, planned.size_values⟩⟩
    rw [Host.machine, loses.counts start, loses.leaves start]
    exact trusts_advance trusts course small planned advance reply

/-- A replay goes on until it misses a key.  By induction on the number of
operations, with trust in the table as the invariant. -/
theorem ends_of_steps (loses : host.Loses w.thread keep ready contents made) (start : ready s)
    (trusts : w.Trusts keep (made s) (contents s)) (course : w.window.OnCourse schedule filled k)
    (reaches : schedule.Reaches ops filled keep k) (total : k + n = ops.toNat)
    (short : ∀ j < ops.toNat, schedule.Reaches ops filled keep j → w.Short (schedule.kindAt j))
    (fit : ∀ j < ops.toNat, schedule.Reaches ops filled keep j →
      w.keys.numberAt w.thread (schedule.placeAt ops filled j) < 2 ^ 64)
    (room : ∀ j ≤ ops.toNat, schedule.Reaches ops filled keep j →
      schedule.insertedAt filled j < 2 ^ 64)
    (runs : ((steps schedule ops k n).start w).Runs events (r, w'))
    (answers : host.machine.Answers events s s') :
    Ends schedule w.thread ops filled keep w' (k + (events.filterMap Event.call?).length) r := by
  -- the invariant: the worker trusts the table, and its counters are on course
  induction n generalizing k w s events with
  | zero =>
    obtain ⟨rfl, same⟩ := Script.runs_done_iff.1 runs
    cases same
    obtain rfl : k = ops.toNat := total
    exact .all reaches course
  | succ n ih =>
    have small : k < ops.toNat := by omega
    have next (found : ¬ schedule.Misses ops filled keep k) :
        schedule.Reaches ops filled keep (k + 1) :=
      Schedule.reaches_succ_iff.2 ⟨reaches, found⟩
    have found_of {first : List Event} {r₁ : Except (Failure WorkError) Unit} {w₁ : Worker}
        {mid : σ} (head : ((step (.ofNat k) (.ofNat (k % 100)) (schedule.kindAt k) ops).start
          w).Runs first (r₁, w₁)) (answers : host.machine.Answers first s mid) :=
      found_of_stepped loses start trusts course small (short k small reaches)
        (fit k small reaches) (fun found => room (k + 1) small (next found))
        (stepped_of_runs head) answers
    rw [steps] at runs
    rcases Task.runs_bind_iff.1 runs with ⟨e, rfl, failed⟩
      | ⟨u, w₁, first, later, rfl, head, tail⟩
    · generalize stops : (Except.error e : Except (Failure WorkError) Unit) = stop at failed
      obtain ⟨once, found⟩ := found_of failed answers
      rw [once]
      cases found with
      | missed misses course' =>
        cases stops
        exact .missed small reaches misses course'
      | found _ _ _ => cases stops
    · obtain ⟨mid, answers₁, answers₂⟩ := Machine.answers_append_iff.1 answers
      obtain ⟨keys, thread⟩ := (stepped_of_runs head).same_keys
      generalize went : (Except.ok u : Except (Failure WorkError) Unit) = end_ at head
      obtain ⟨once, found⟩ := found_of head answers₁
      rw [List.filterMap_append, List.length_append, once, ← Nat.add_assoc]
      cases found with
      | missed _ _ => cases went
      | found found course' goesOn =>
        obtain ⟨start', trusts', size⟩ := goesOn
        unfold Short at short
        rw [← thread] at loses ⊢
        rw [← keys, ← size] at short
        rw [← thread, ← keys] at fit
        exact ih loses start' trusts' course' (next found) (by omega) short fit tail answers₂

/-! ## Workers and their host -/

/-- A worker that fills a lossy table is content with it. -/
theorem fill_trusts (loses : host.Loses thread keep ready contents made) (start : ready s)
    (none_made : made s = 0) (none_there : (contents s).Marks keys thread 0 0) {count : UInt64}
    (short : count = 0 ∨ keys.size < 2 ^ 63 ∧ values.size < 2 ^ 63)
    (fit : ∀ i < count.toNat, keys.numberAt thread i < 2 ^ 64) :
    let played := host.play .goOn ((fill keys thread count).start values) s
    (∃ values', played.result? = some (.ok (), values')) ∧ played.events.filterMap Event.alarm? =
      [] ∧ ready played.state ∧ made played.state = count.toNat ∧
      (contents played.state).Marks keys thread 0 (min keep count.toNat) := by
  intro played
  obtain ⟨events, ⟨r, values'⟩, s', play, runs, answers⟩ :=
    host.exists_play ((fill keys thread count).start values) s
  have filling := filling_of_runs runs
  have zero : (0 : UInt64).toNat + count.toNat = count.toNat := Nat.zero_add _
  obtain ⟨rfl, ready', made', marks'⟩ :=
    ok_of_filling loses start (short.imp_left (congrArg UInt64.toNat))
      (zero.symm ▸ count.toNat_lt) (zero.symm ▸ fit) (none_made.trans UInt64.toNat_zero.symm)
      (by rwa [UInt64.toNat_zero, Nat.min_zero]) filling answers
  rw [zero] at made' marks'
  rw [show played = ⟨some (.ok (), values'), events, s'⟩ from play]
  exact ⟨⟨values', rfl⟩, (judged_of_filling filling).alarms, ready', made', marks'⟩

/-- A replay raises the alarm if and as it fails for an answer. -/
theorem alarms_of_steps (runs : ((steps schedule ops k n).start w).Runs events (r, w')) :
    events.filterMap Event.alarm? = (blamed? r).toList := by
  have quiet {w w' : Worker} {events : List Event} {r : Except (Failure WorkError) Unit}
      (runs : ((pure () : Task Worker Unit).start w).Runs events (r, w')) :
          Judged False events r := by
    obtain ⟨rfl, same⟩ := Script.runs_done_iff.1 runs
    cases same
    exact judged_nil id _ rfl
  rw [← bind_pure (steps schedule ops k n)] at runs
  exact (judged_of_steps quiet runs).alarms

/-- A worker that trusts a lossy table replays its schedule until it misses a
key. -/
theorem replay_ends (loses : host.Loses w.thread keep ready contents made) (start : ready s)
    (trusts : w.Trusts keep (made s) (contents s)) (course : w.window.OnCourse schedule filled 0)
    (short : ∀ j < ops.toNat, schedule.Reaches ops filled keep j → w.Short (schedule.kindAt j))
    (fit : ∀ j < ops.toNat, schedule.Reaches ops filled keep j →
      w.keys.numberAt w.thread (schedule.placeAt ops filled j) < 2 ^ 64)
    (room : ∀ j ≤ ops.toNat, schedule.Reaches ops filled keep j →
      schedule.insertedAt filled j < 2 ^ 64) :
    let played := host.play .goOn ((replay schedule ops).start w) s
    ∃ result w', played.result? = some (result, w') ∧
      played.events.filterMap Event.alarm? = (blamed? result).toList ∧
      Ends schedule w.thread ops filled keep w' (played.events.filterMap Event.call?).length
          result := by
  intro played
  obtain ⟨events, ⟨result, w'⟩, s', play, runs, answers⟩ :=
    host.exists_play ((replay schedule ops).start w) s
  rw [replay_eq_steps] at runs
  have ends := ends_of_steps loses start trusts course (schedule.reaches_zero ops filled keep)
    (Nat.zero_add _) short fit room runs answers
  rw [Nat.zero_add] at ends
  have events_eq : played.events = events := congrArg Performance.events play
  rw [events_eq]
  exact ⟨result, w', congrArg Performance.result? play, alarms_of_steps runs, ends⟩

end

/-- What a worker notices of lost inserts.  Let a table that knows no key of a
thread keep so many inserts of the thread, lose the others and pretend to take
them.  A worker that fills the table and then replays any schedule does not
notice anything until it reads or updates a key that it thinks is there but
that was not kept, or is about to erase such a key.  At the first operation
that does so it stops, and raises the alarm once; without such an operation it
succeeds. -/
theorem lost_inserts_are_caught {σ : Type} (host : Host σ) (s : σ) {thread : UInt64} {keep : Nat}
    {ready : σ → Prop} {contents : σ → Contents} {made : σ → Nat}
    (loses : host.Loses thread keep ready contents made) (start : ready s)
    (none_made : made s = 0) (keys : KeySpace) (none_there : (contents s).Marks keys thread 0 0)
    (schedule : Schedule) (filled ops : UInt64) (fillValues values : ValueSource) (latency : Bool)
    (short_fill : filled = 0 ∨ keys.size < 2 ^ 63 ∧ fillValues.size < 2 ^ 63)
    (short : ∀ k < ops.toNat, schedule.Reaches ops filled.toNat keep k → keys.size < 2 ^ 63 ∧
      ((schedule.kindAt k).writes → values.size < 2 ^ 63))
    (fit_fill : ∀ i < filled.toNat, keys.numberAt thread i < 2 ^ 64)
    (fit : ∀ k < ops.toNat, schedule.Reaches ops filled.toNat keep k →
      keys.numberAt thread (schedule.placeAt ops filled.toNat k) < 2 ^ 64)
    (room : keys.threads = 1 → ∀ k ≤ ops.toNat, schedule.Reaches ops filled.toNat keep k →
      schedule.insertedAt filled.toNat k < 2 ^ 64) :
    let filling := host.play .goOn ((fill keys thread filled).start fillValues) s
    let played :=
      host.play .goOn ((replay schedule ops).start (ofThread thread filled keys values latency))
        filling.state
    let calls := played.events.filterMap Event.call?
    let alarms := played.events.filterMap Event.alarm?
    let misses := schedule.Misses ops filled.toNat keep
    (∃ values', filling.result? = some (.ok (), values')) ∧
      filling.events.filterMap Event.alarm? = [] ∧
      ∃ result w', played.result? = some (result, w') ∧
        ((∃ f, result = .error f) ↔ ∃ k < ops.toNat, misses k) ∧
        (∀ k < ops.toNat, (∀ j < k, ¬ misses j) → misses k →
          let e := WorkError.mismatch (schedule.missAt thread ops filled.toNat k)
          result = .error (.error e) ∧ alarms = [e] ∧ calls.length = k + 1 ∧
            w'.window.OnCourse schedule filled.toNat k) ∧
        ((∀ k < ops.toNat, ¬ misses k) → result = .ok () ∧ alarms = [] ∧
          calls.length = ops.toNat ∧ w'.window.OnCourse schedule filled.toNat ops.toNat) := by
  intro filling played calls alarms misses
  obtain ⟨filled_ok, fill_alarms, start', made_eq, marks⟩ :=
    fill_trusts loses start none_made none_there short_fill fit_fill
  have trusts : (ofThread thread filled keys values latency).Trusts keep (made filling.state)
      (contents filling.state) := ⟨made_eq, marks⟩
  have room' : ∀ k ≤ ops.toNat, schedule.Reaches ops filled.toNat keep k →
      schedule.insertedAt filled.toNat k < 2 ^ 64 := by
    intro k below reaches
    by_cases single : keys.threads = 1
    · exact room single k below reaches
    · exact Schedule.insertedAt_lt single filled.toNat_lt
        (fun j before => fit j (Nat.lt_of_lt_of_le before below)) reaches
  obtain ⟨result, w', ends, (alarmed : alarms = _), (ending : Ends _ _ _ _ _ _ calls.length _)⟩ :=
    replay_ends loses start' trusts ⟨rfl, rfl⟩ short fit room'
  refine ⟨filled_ok, fill_alarms, result, w', ends, ?_⟩
  rw [alarmed]
  generalize calls.length = total at ending ⊢
  cases ending with
  | all reaches course =>
    refine ⟨⟨?_, ?_⟩, fun k below _ miss => absurd miss (reaches k below),
      fun _ => ⟨rfl, rfl, rfl, course⟩⟩
    · rintro ⟨f, failed⟩
      cases failed
    · rintro ⟨k, below, miss⟩
      exact absurd miss (reaches k below)
  | @missed first below reaches miss course =>
    refine ⟨⟨fun _ => ⟨first, below, miss⟩, fun _ => ⟨_, rfl⟩⟩, fun k below' reaches' miss' => ?_,
      fun none => absurd miss (none first below)⟩
    obtain rfl : k = first := by
      rcases Nat.lt_trichotomy k first with less | same | more
      · exact absurd miss' (reaches k less)
      · exact same
      · exact absurd miss (reaches' first more)
    exact ⟨rfl, rfl, rfl, course⟩

/-- Of three inserts two are kept, and the last one of three reads is of the
key that was lost. -/
theorem lost_inserts_are_caught_third_read :
    let schedule : Schedule := ⟨.ofFn fun _ => .read⟩
    let keys : KeySpace := ⟨2, 8, by decide, by decide⟩
    let host := Host.ofTable (Faulty.table Contents.table ⟨some 2, []⟩ fun _ => 0) 0 id
    let filling := host.play .goOn ((fill keys 1 3).start (.ofSeed 8 0)) (.ofTable .empty)
    let played :=
      host.play .goOn ((replay schedule 3).start (ofThread 1 3 keys (.ofSeed 8 0) false))
        filling.state
    (∃ values', filling.result? = some (.ok (), values')) ∧
      ∃ result w', played.result? = some (result, w') ∧
        result = .error (.error (.mismatch ⟨1, .read, 2, 2, false, true⟩)) ∧
        (played.events.filterMap Event.call?).length = 3 := by
  intro schedule keys host filling played
  have loses : host.Loses 1 2 (fun _ => True) Faulty.below fun s => (s.tally 0).inserts :=
    (Contents.correct 0 id).loses 1 2 0
  obtain ⟨filled, -, result, w', ends, -, caught, -⟩ :=
    lost_inserts_are_caught host (.ofTable .empty) loses trivial rfl keys
      (.of_empty keys 1 0) schedule 3 3 (.ofSeed 8 0) (.ofSeed 8 0) false (by decide) (by decide)
      (by decide) (by decide) fun single => absurd single (by decide)
  obtain ⟨failed, -, calls, -⟩ := caught 2 (by decide) (by decide) (by decide)
  exact ⟨filled, result, w', ends, failed, calls⟩

/-- Not every replay that misses no key succeeds: a value can be too long to
exist. -/
theorem crashes_without_lost_insert :
    let schedule : Schedule := ⟨.ofFn fun _ => .update⟩
    let keys : KeySpace := ⟨1, 8, by decide, by decide⟩
    let host := Host.ofTable (Faulty.table Contents.table ⟨some 0, []⟩ fun _ => 0) 0 id
    let begun := ofThread 0 0 keys (.ofSeed (2 ^ 63) 0) false
    let played := host.play .goOn ((replay schedule 1).start begun) (.ofTable .empty)
    host.Loses 0 0 (fun _ => True) Faulty.below (fun s => (s.tally 0).inserts) ∧
      (∀ k < (1 : UInt64).toNat, keys.numberAt 0 (schedule.placeAt 1 0 k) < 2 ^ 64 ∧
        ¬ schedule.Misses 1 0 0 k) ∧
      played.result? = some (.error (.crash .lengthTooLarge), begun) := by
  intro schedule keys host begun played
  exact ⟨(Contents.correct 0 id).loses 0 0 0, by decide, by rfl⟩

end Worker

end TableProbe
