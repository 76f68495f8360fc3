import TableProbe.Proofs.Worker.Expected
import TableProbe.Proofs.Worker.Filling
import TableProbe.Proofs.Worker.Replay

/-!
# Workers stay in range

As long as the numbers of all keys that a worker may come to fit into a word,
nothing in its work leaves the range of a word, whatever the table answers.
What is left are keys and values that are too long to exist
(`Worker.long_of_filling`), and the one counter that says how many keys were
inserted: it counts one further than keys have numbers, so it can be full after
the last operation of all (`Worker.crash_of_steps`).  A table that takes every
key lets the counter come there (`Worker.crash_or_counted_of_steps`).
-/

namespace TableProbe

/-- The event is not a call that crashed. -/
def Event.Sound (e : Event) : Prop :=
  ∀ call c micros, e.call? ≠ some (call, ⟨.error (.crash c), micros⟩)

theorem Event.Sound.ne_crash {α : Type} {who : Actor} {call : Call} {reply : Reply}
    {f : Failure TableError} {c : Crash} (sound : Event.Sound ⟨who, .call call, reply⟩)
    (outcome : reply.outcome = .error f) :
    (.error (f.map .table) : Except (Failure WorkError) α) ≠ .error (.crash c) := by
  intro same
  cases f with
  | error e => cases same
  | crash c' =>
    refine sound call c' reply.micros ?_
    rw [← outcome]
    rfl

/-- The event is not an insert that did not add its key. -/
def Event.Taken (e : Event) : Prop :=
  ∀ key value reply, e.call? = some (.insert key value, reply) →
    reply.outcome = .ok (.changed true)

/-- Operations of this kind can add a key. -/
def OpKind.adds : OpKind → Bool
  | insert | upsert => true
  | _ => false

/-- The crash is that of a key or a value that is too long to exist. -/
def Crash.IsOfLength (keySize valueSize : Nat) (c : Crash) : Prop :=
  c = .lengthTooLarge ∧ ¬ (keySize < 2 ^ 63 ∧ valueSize < 2 ^ 63)

/-- No operation adds more than one key. -/
theorem Window.inserted_le_of_advance {w w' : Window} {move : Move}
    (h : w.advance move = .ok w') : w'.inserted.toNat ≤ w.inserted.toNat + 1 := by
  cases move with
  | none =>
    injection h with h
    exact h ▸ Nat.le_succ _
  | erased =>
    obtain ⟨n, -, rfl⟩ := advance_eq_ok_iff.1 h
    exact Nat.le_succ _
  | inserted =>
    obtain ⟨n, hn, rfl⟩ := advance_eq_ok_iff.1 h
    exact Nat.le_of_eq hn

namespace Worker

/-! ## Filling -/

theorem toNat_next {seq : UInt64} {count : Nat} (bound : seq.toNat + (count + 1) < 2 ^ 64) :
    (seq + 1).toNat = seq.toNat + 1 := by
  have one : (1 : UInt64).toNat = 1 := rfl
  rw [UInt64.toNat_add, one]
  omega

/-- If all keys have numbers, then filling can only crash because keys or
values are too long. -/
theorem long_of_filling {keys : KeySpace} {thread seq : UInt64} {count : Nat}
    {values values' : ValueSource} {events : List Event} {r : Except (Failure WorkError) Unit}
    {c : Crash} (bound : seq.toNat + count < 2 ^ 64)
    (fit : ∀ i < seq.toNat + count, keys.numberAt thread i < 2 ^ 64)
    (filling : Filling keys thread count seq values events r values')
    (sound : ∀ e ∈ events, e.Sound) (crashed : r = .error (.crash c)) :
    c.IsOfLength keys.size values.size := by
  induction filling with
  | finished => cases crashed
  | @keyless count seq values _ hkey =>
    cases crashed
    obtain ⟨rfl, long⟩ := keys.long_of_key_eq_error (fit seq.toNat (by omega)) hkey
    exact ⟨rfl, fun sizes => long sizes.1⟩
  | valueless hvalue =>
    cases crashed
    obtain ⟨rfl, long⟩ := ValueSource.long_of_next_eq_error hvalue
    exact ⟨rfl, fun sizes => long sizes.2⟩
  | refused _ _ outcome => exact absurd crashed ((sound _ List.mem_cons_self).ne_crash outcome)
  | mismatched _ _ _ _ => cases crashed
  | added _ hvalue _ _ _ ih =>
    have size := (ValueSource.next_eq_ok hvalue).2
    have next := toNat_next bound
    rw [← size]
    exact ih (by omega) (fun i below => fit i (by omega))
      (fun e he => sound e (List.mem_cons_of_mem _ he)) crashed

/-! ## Replaying -/

/-- All keys that a worker can come to with `n` more operations, in a run of
`ops` ones, have numbers. -/
structure InReach (w : Worker) (ops : UInt64) (n : Nat) : Prop where
  inserts : ∀ i < w.window.inserted.toNat + n, w.keys.numberAt w.thread i < 2 ^ 64
  spread : ∀ i < ops.toNat, w.keys.numberAt w.thread i < 2 ^ 64

section

variable {w w' : Worker} {schedule : Schedule} {ops op slot : UInt64} {kind : OpKind} {k n : Nat}
  {events : List Event} {probe : Probe} {window : Window}

/-- The key of an operation has a number, whichever key it is: the next new
one, the oldest or the newest one, or one of those that the operations are
spread over. -/
theorem seqOf_fits (reach : w.InReach ops (n + 1)) (ordered : w.window.erased ≤ w.window.inserted)
    (some_ops : ops ≠ 0) :
    w.keys.numberAt w.thread (w.seqOf op slot kind ops).toNat < 2 ^ 64 := by
  have spread : w.keys.numberAt w.thread (scatter op slot % ops).toNat < 2 ^ 64 := by
    apply reach.spread
    rw [UInt64.toNat_mod]
    exact Nat.mod_lt _ (Nat.pos_of_ne_zero fun h => some_ops (UInt64.toNat_inj.1 h))
  have inside {seq : UInt64} (h : seq ≤ w.window.inserted) :
      w.keys.numberAt w.thread seq.toNat < 2 ^ 64 := by
    apply reach.inserts
    rw [UInt64.le_iff_toNat_le] at h
    omega
  cases kind with
  | read => exact spread
  | insert => exact inside (UInt64.le_refl _)
  | erase => exact inside ordered
  | update => exact spread
  | upsert =>
    unfold seqOf
    dsimp only
    split
    · exact inside (UInt64.le_refl _)
    · rename_i skips
      have some_key : 0 < w.window.inserted := by
        rw [UInt64.lt_iff_toNat_lt]
        exact Nat.pos_of_ne_zero fun h => skips (.inl (UInt64.toNat_inj.1 h))
      apply inside
      rw [UInt64.le_iff_toNat_le, toNat_newest some_key]
      exact Nat.sub_le _ _

/-- An operation adds one key at most, so after it the operations that are left
come to no other keys than before. -/
theorem InReach.after (reply : Reply) (reach : w.InReach ops (n + 1))
    (advance : w.window.advance probe.move = .ok window) :
    ({ w.answered probe reply with window } : Worker).InReach ops n := by
  have moved := Window.inserted_le_of_advance advance
  refine ⟨fun i below => ?_, reach.spread⟩
  dsimp only at below
  exact reach.inserts i (by omega)

theorem adds_eq_true (adds : w.Adds op slot kind) : kind.adds = true := by
  rcases adds with rfl | ⟨rfl, -⟩
  · rfl
  · rfl

/-- Only operations that can add a key move the counter of inserted keys on. -/
theorem inserted_le_of_planned (planned : Planned w op slot kind ops probe)
    (advance : w.window.advance probe.move = .ok window) :
    window.inserted.toNat ≤ w.window.inserted.toNat + kind.adds.toNat := by
  have same (h : window.inserted = w.window.inserted) :
      window.inserted.toNat ≤ w.window.inserted.toNat + kind.adds.toNat := by
    rw [h]
    exact Nat.le_add_right _ _
  cases planned with
  | read _ _ _ =>
    cases advance
    exact same rfl
  | insert adds _ _ =>
    rw [adds_eq_true adds]
    exact Window.inserted_le_of_advance advance
  | erase _ _ =>
    split at advance
    · obtain ⟨n, -, rfl⟩ := Window.advance_eq_ok_iff.1 advance
      exact same rfl
    · cases advance
      exact same rfl
  | update _ _ _ _ =>
    cases advance
    exact same rfl
  | overwrite _ _ _ _ =>
    cases advance
    exact same rfl

/-- Only operations that can add a key can find the counter full. -/
theorem adds_of_overflow {c : Crash} (planned : Planned w op slot kind ops probe)
    (full : w.window.advance probe.move = .error c) : kind.adds = true := by
  have inserts := (isInsert_of_overflow planned full).1
  cases planned with
  | insert adds _ _ => exact adds_eq_true adds
  | read _ _ _ => cases inserts
  | erase _ _ => cases inserts
  | update _ _ _ _ => cases inserts
  | overwrite _ _ _ _ => cases inserts

/-- An answer as expected leaves the counters in order: erases of an empty
window are expected to fail, and count nothing. -/
theorem ordered_advance (planned : Planned w op slot kind ops probe)
    (ordered : w.window.erased ≤ w.window.inserted)
    (advance : w.window.advance probe.move = .ok window) : window.erased ≤ window.inserted := by
  refine Window.ordered_of_advance ordered advance fun erases => ?_
  cases planned with
  | erase _ _ =>
    refine Decidable.byContradiction fun drained => ?_
    exact absurd (erases.symm.trans (if_neg drained)) nofun
  | read _ _ _ => cases erases
  | insert _ _ _ => cases erases
  | update _ _ _ _ => cases erases
  | overwrite _ _ _ _ => cases erases

/-- How many of some operations can add a key. -/
def addingOps (schedule : Schedule) (k n : Nat) : Nat :=
  (List.range' k n).countP fun j => (schedule.kindAt j).adds

theorem addingOps_succ (schedule : Schedule) (k n : Nat) :
    addingOps schedule k (n + 1) = addingOps schedule (k + 1) n +
      (schedule.kindAt k).adds.toNat := by
  unfold addingOps
  rw [List.range'_succ, List.countP_cons]
  cases (schedule.kindAt k).adds with
  | true => rfl
  | false => rfl

/-- If all keys have numbers, then a replay can only crash because keys or
values are too long, or at the end of the counter of inserted keys. -/
theorem crash_of_steps {r : Except (Failure WorkError) Unit} {c : Crash} (reach : w.InReach ops n)
    (ordered : w.window.erased ≤ w.window.inserted) (bound : k + n ≤ ops.toNat)
    (runs : ((steps schedule ops k n).start w).Runs events (r, w'))
    (sound : ∀ e ∈ events, e.Sound) (crashed : r = .error (.crash c)) :
    c.IsOfLength w.keys.size w.values.size ∨
      c = .sumTooLarge ∧ 2 ^ 64 ≤ w.window.inserted.toNat + addingOps schedule k n := by
  induction n generalizing k w events with
  | zero =>
    obtain ⟨rfl, same⟩ := Script.runs_done_iff.1 runs
    cases same
    cases crashed
  | succ n ih =>
    have some_ops : ops ≠ 0 := by
      intro none
      rw [none] at bound
      cases bound
    rw [steps] at runs
    rw [addingOps_succ]
    rcases Task.runs_bind_iff.1 runs with ⟨e, stopped, failed⟩
      | ⟨u, mid, first, later, rfl, head, tail⟩
    · rw [stopped] at crashed
      cases crashed
      generalize stops : (Except.error (Failure.crash c) : Except (Failure WorkError) Unit) = stop
        at failed
      cases stepped_of_runs failed with
      | unplanned plan =>
        cases stops
        obtain ⟨rfl, long⟩ :=
          (hindered_of_plan plan).long some_ops (seqOf_fits reach ordered some_ops)
        exact .inl ⟨rfl, fun sizes => long (short_of_sizes sizes)⟩
      | refused _ outcome =>
        exact absurd stops.symm ((sound _ List.mem_cons_self).ne_crash outcome)
      | mismatched _ _ _ => cases stops
      | overflown plan _ _ full =>
        cases stops
        have planned := planned_of_plan plan
        have limit := (isInsert_of_overflow planned full).2
        rw [adds_of_overflow planned full]
        refine .inr ⟨Window.eq_sumTooLarge_of_advance full, ?_⟩
        have one : Bool.toNat true = 1 := rfl
        omega
      | disordered plan _ _ advance disorder =>
        exact absurd (ordered_advance (planned_of_plan plan) ordered advance) disorder
      | advanced _ _ _ _ _ => cases stops
    · obtain ⟨probe, reply, _, window, plan, -, -, advance, ordered', rfl, rfl⟩ :=
        advanced_of_runs head
      have planned := planned_of_plan plan
      have moved := inserted_le_of_planned planned advance
      have rest := ih (reach.after reply advance) ordered' (by omega) tail
        (fun e he => sound e (List.mem_append_right _ he))
      rw [← planned.size_values]
      refine rest.imp id fun full => ⟨full.1, ?_⟩
      have limit := full.2
      dsimp only at limit
      omega

/-! ## Tables that take every key -/

/-- If all inserts take effect, then only a crash keeps a worker from making
all of them. -/
theorem crash_or_ok_of_filling {keys : KeySpace} {thread seq : UInt64} {count : Nat}
    {values values' : ValueSource} {r : Except (Failure WorkError) Unit}
    (filling : Filling keys thread count seq values events r values')
    (taken : ∀ e ∈ events, e.Taken) : (∃ c, r = .error (.crash c)) ∨ r = .ok () := by
  induction filling with
  | finished => exact .inr rfl
  | keyless _ => exact .inl ⟨_, rfl⟩
  | valueless _ => exact .inl ⟨_, rfl⟩
  | refused _ _ outcome => cases outcome.symm.trans (taken _ List.mem_cons_self _ _ _ rfl)
  | mismatched _ _ outcome missed =>
    cases outcome.symm.trans (taken _ List.mem_cons_self _ _ _ rfl)
    cases missed
  | added _ _ _ _ _ ih => exact ih fun e he => taken e (List.mem_cons_of_mem _ he)

/-- An operation of a replay that can add a key does so. -/
theorem inserts_of_adds (planned : Planned w (.ofNat k) (.ofNat (k % 100)) kind ops probe)
    (bound : k < 2 ^ 64) (adds : kind.adds = true) :
    (∃ key value, probe.call = .insert key value) ∧ probe.expected = true ∧
      probe.move = .inserted := by
  cases planned with
  | read hkind _ _ =>
    subst hkind
    cases adds
  | insert _ _ _ => exact ⟨⟨_, _, rfl⟩, rfl, rfl⟩
  | erase hkind _ =>
    subst hkind
    cases adds
  | update hkind _ _ _ =>
    subst hkind
    cases adds
  | overwrite hkind skips _ _ => exact absurd (adds_of_upsert bound hkind) skips

/-- A step that adds a key counts it, or crashes.  This makes the exception of
a full counter a real one: the crash cannot be avoided. -/
theorem crash_or_counted_of_stepped {r : Except (Failure WorkError) Unit}
    (stepped : Stepped w (.ofNat k) (.ofNat (k % 100)) kind ops events r w') (bound : k < 2 ^ 64)
    (adds : kind.adds = true) (taken : ∀ e ∈ events, e.Taken) :
    (∃ c, r = .error (.crash c)) ∨ r = .ok () ∧
      w'.window.inserted.toNat = w.window.inserted.toNat + 1 := by
  -- the events exclude a call that failed or was denied; all that is left counts or crashes
  cases stepped with
  | unplanned _ => exact .inl ⟨_, rfl⟩
  | refused plan outcome =>
    obtain ⟨⟨key, value, call⟩, -⟩ := inserts_of_adds (planned_of_plan plan) bound adds
    cases outcome.symm.trans (taken _ List.mem_cons_self key value _ (by rw [call]; rfl))
  | mismatched plan outcome missed =>
    obtain ⟨⟨key, value, call⟩, expected, -⟩ := inserts_of_adds (planned_of_plan plan) bound adds
    cases outcome.symm.trans (taken _ List.mem_cons_self key value _ (by rw [call]; rfl))
    exact absurd expected.symm missed
  | overflown _ _ _ _ => exact .inl ⟨_, rfl⟩
  | disordered _ _ _ _ _ => exact .inl ⟨_, rfl⟩
  | advanced plan _ _ advance _ =>
    obtain ⟨-, -, move⟩ := inserts_of_adds (planned_of_plan plan) bound adds
    rw [move] at advance
    obtain ⟨n, hn, rfl⟩ := Window.advance_eq_ok_iff.1 advance
    exact .inr ⟨rfl, hn⟩

/-- So do many steps. -/
theorem crash_or_counted_of_steps {r : Except (Failure WorkError) Unit}
    (adds : ∀ j < n, (schedule.kindAt (k + j)).adds = true) (bound : k + n ≤ 2 ^ 64)
    (runs : ((steps schedule ops k n).start w).Runs events (r, w'))
    (taken : ∀ e ∈ events, e.Taken) :
    (∃ c, r = .error (.crash c)) ∨ r = .ok () ∧
      w'.window.inserted.toNat = w.window.inserted.toNat + n := by
  induction n generalizing k w events with
  | zero =>
    obtain ⟨rfl, same⟩ := Script.runs_done_iff.1 runs
    cases same
    exact .inr ⟨rfl, rfl⟩
  | succ n ih =>
    have first : (schedule.kindAt k).adds = true := adds 0 (Nat.succ_pos n)
    have below : k < 2 ^ 64 := by omega
    rw [steps] at runs
    rcases Task.runs_bind_iff.1 runs with ⟨e, rfl, failed⟩
      | ⟨u, mid, before, later, rfl, head, tail⟩
    · rcases crash_or_counted_of_stepped (stepped_of_runs failed) below first taken with ⟨c, same⟩
        | ⟨none, -⟩
      · cases same
        exact .inl ⟨c, rfl⟩
      · cases none
    · have taken_first : ∀ e ∈ before, e.Taken := fun e he => taken e (List.mem_append_left _ he)
      rcases crash_or_counted_of_stepped (stepped_of_runs head) below first taken_first with
        ⟨c, none⟩ | ⟨-, counted⟩
      · cases none
      · have rest :=
          ih (fun j bound => Nat.succ_add_eq_add_succ k j ▸ adds (j + 1) (Nat.succ_lt_succ bound))
            (by omega) tail fun e he => taken e (List.mem_append_right _ he)
        refine rest.imp id fun done => ⟨done.1, ?_⟩
        rw [done.2, counted]
        omega

end

end Worker

end TableProbe
