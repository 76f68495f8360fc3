import TableProbe.Proofs.Script.Task
import TableProbe.Worker.Replay

/-!
# A replay is one step after another

A replay goes round the schedule slot by slot and breaks off within a round.
Seen from outside it is a plain sequence of steps, one for each operation, with
the slots counted modulo their number (`Worker.replay_eq_steps`).
-/

namespace TableProbe

/-- The kind of the operation with a number, when slots are used again and
again. -/
def Schedule.kindAt (s : Schedule) (op : Nat) : OpKind :=
  s.slots.get ⟨op % 100, Nat.mod_lt _ (by decide)⟩

namespace Worker

variable {schedule : Schedule} {ops : UInt64}

/-- The operations of a run of `ops` ones from number `op` on, `n` of them. -/
def steps (schedule : Schedule) (ops : UInt64) : Nat → Nat → Task Worker Unit
  | _, 0 => return ()
  | op, n + 1 => do
    step (.ofNat op) (.ofNat (op % 100)) (schedule.kindAt op) ops
    steps schedule ops (op + 1) n

theorem steps_add (op m n : Nat) :
    steps schedule ops op (m + n) =
      (do steps schedule ops op m; steps schedule ops (op + m) n) := by
  induction m generalizing op with
  | zero => simp only [steps, pure_bind, Nat.zero_add, Nat.add_zero]
  | succ m ih =>
    rw [Nat.succ_add, steps, steps, ih, bind_assoc, Nat.succ_add_eq_add_succ]

theorem places_drop {slot : Nat} (h : slot < 100) :
    schedule.places.drop slot = (.ofNat slot, schedule.slots[slot]) :: schedule.places.drop
      (slot + 1) := by
  have length : schedule.places.length = 100 := by simp [Schedule.places]
  rw [List.drop_eq_getElem_cons (by omega)]
  simp [Schedule.places]

theorem ofNat_eq_iff {n : Nat} (h : n ≤ ops.toNat) : UInt64.ofNat n = ops ↔ n = ops.toNat := by
  rw [← UInt64.toNat_inj, UInt64.toNat_ofNat_of_lt' (Nat.lt_of_le_of_lt h ops.toNat_lt)]

/-- The number of an operation can be counted up without an overflow, since it
is below the number of all operations. -/
theorem compute_next {op : Nat} (h : op < ops.toNat) :
    (Task.compute (Checked.add (.ofNat op) 1) : Task Worker UInt64) = pure (.ofNat (op + 1)) := by
  have bound : ops.toNat < UInt64.size := ops.toNat_lt_size
  have sum : Checked.add (.ofNat op) 1 = .ok (.ofNat (op + 1)) := by
    rw [Checked.add_eq_ok_iff, UInt64.toNat_ofNat_of_lt' (by omega),
      UInt64.toNat_ofNat_of_lt' (by omega)]
    rfl
  rw [sum]
  rfl

/-- The rest of a round, `k` slots of it, does its operations until there are
`ops` of them. -/
theorem round_drop {k op : Nat} (hk : k ≤ 100) (hop : op ≤ ops.toNat)
    (place : op % 100 = (100 - k) % 100) :
    round ops (schedule.places.drop (100 - k)) (.ofNat op) = (do
      steps schedule ops op (min k (ops.toNat - op))
      return .ofNat (op + min k (ops.toNat - op))) := by
  induction k generalizing op with
  | zero =>
    have length : schedule.places.length = 100 := by simp [Schedule.places]
    rw [List.drop_of_length_le (by omega), Nat.zero_min, steps, round, pure_bind, Nat.add_zero]
  | succ k ih =>
    rw [places_drop (by omega), round]
    by_cases last : op = ops.toNat
    · rw [if_pos ((ofNat_eq_iff hop).2 last), last, Nat.sub_self, Nat.min_zero, steps, pure_bind,
        Nat.add_zero]
    · have below : op < ops.toNat := by omega
      rw [if_neg fun h => last ((ofNat_eq_iff hop).1 h), compute_next below]
      have count : min (k + 1) (ops.toNat - op) = min k (ops.toNat - (op + 1)) + 1 := by omega
      have slot : op % 100 = 100 - (k + 1) := by omega
      rw [count, show 100 - (k + 1) + 1 = 100 - k by omega, steps, bind_assoc]
      simp only [pure_bind, Schedule.kindAt, slot]
      congr 1
      funext _
      rw [ih (by omega) (by omega) (by omega),
        show op + 1 + min k (ops.toNat - (op + 1)) = op + (min k (ops.toNat - (op + 1)) + 1)
          by omega]

/-- The operations of successive rounds are one plain sequence: a round begins
at the first slot, and ends behind the last slot or behind the last operation. -/
theorem rounds_eq_steps (n : Nat) {op : Nat} (hop : op ≤ ops.toNat) (hn : ops.toNat - op ≤ n)
    (place : op % 100 = 0 ∨ op = ops.toNat) :
    rounds schedule ops n (.ofNat op) = steps schedule ops op (ops.toNat - op) := by
  induction n generalizing op with
  | zero => rw [Nat.eq_zero_of_le_zero hn, rounds, steps]
  | succ n ih =>
    have value : (UInt64.ofNat op).toNat = op :=
      UInt64.toNat_ofNat_of_lt' (Nat.lt_of_le_of_lt hop ops.toNat_lt)
    rw [rounds]
    by_cases last : op = ops.toNat
    · rw [if_neg (by rw [UInt64.lt_iff_toNat_lt, value]; omega), last, Nat.sub_self, steps]
    · rw [if_pos (by rw [UInt64.lt_iff_toNat_lt, value]; omega)]
      have whole : round ops (schedule.places.drop (100 - 100)) (.ofNat op) = _ :=
        round_drop (Nat.le_refl _) hop (by omega)
      rw [Nat.sub_self, List.drop_zero] at whole
      -- a round takes all hundred slots, or what is left of the operations
      obtain ⟨m, hm⟩ : ∃ m, m = min 100 (ops.toNat - op) := ⟨_, rfl⟩
      rw [whole, bind_assoc, ← hm, show ops.toNat - op = m + (ops.toNat - (op + m)) by omega,
        steps_add]
      simp only [pure_bind]
      rw [ih (by omega) (by omega) (by omega)]

/-- A replay does its operations in the order of their numbers, each with the
slot that its number leaves modulo the length of the schedule. -/
theorem replay_eq_steps (schedule : Schedule) (ops : UInt64) :
    replay schedule ops = steps schedule ops 0 ops.toNat :=
  rounds_eq_steps _ (Nat.zero_le _) (Nat.le_refl _) (.inl rfl)

/-- A sequence of steps is a loop over the numbers of its operations: the
number alone decides on the slot and on the kind. -/
theorem steps_eq_forM (op n : Nat) :
    steps schedule ops op n =
      (List.range' op n).forM fun k => step (.ofNat k) (.ofNat (k % 100))
        (schedule.kindAt k) ops := by
  induction n generalizing op with
  | zero => rfl
  | succ n ih =>
    rw [steps, ih, List.range'_succ]
    rfl

end Worker

end TableProbe
