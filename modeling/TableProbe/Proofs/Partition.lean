import TableProbe.Partition

/-!
# Shares of a partition

The share of a thread is a plain quotient, with the remainder added for the
last thread.  So all shares sum to the whole (`Partition.sum_part`), and no key
that a thread can come to in its share lies far beyond the whole
(`Partition.part_mul_le`).
-/

namespace TableProbe.Partition

/-- What falls to thread number `i` of `n` items. -/
def part (n threads i : Nat) : Nat := n / threads + if i + 1 = threads then n % threads else 0

variable {n threads i : Nat}

theorem part_le (n threads i : Nat) : part n threads i ≤ n := by
  have whole := Nat.div_add_mod n threads
  unfold part
  split
  · rename_i last
    have pos : 0 < threads := by omega
    have quotient : n / threads ≤ threads * (n / threads) := Nat.le_mul_of_pos_left _ pos
    omega
  · exact Nat.le_trans (Nat.le_of_eq (Nat.add_zero _)) (Nat.div_le_self n threads)

/-- The last thread, as a number. -/
theorem eq_pred_iff {threads thread : UInt64} (h : thread < threads) :
    thread = threads - 1 ↔ thread.toNat + 1 = threads.toNat := by
  have bound := UInt64.lt_iff_toNat_lt.1 h
  have one : (1 : UInt64).toNat = 1 := rfl
  have one_le : (1 : UInt64) ≤ threads :=
    UInt64.le_iff_toNat_le.2 (Nat.lt_of_le_of_lt (Nat.zero_le _) bound)
  rw [← UInt64.toNat_inj, UInt64.toNat_sub_of_le _ _ one_le, one]
  omega

theorem toNat_ofNat_part (n : UInt64) (threads i : Nat) :
    (UInt64.ofNat (part n.toNat threads i)).toNat = part n.toNat threads i :=
  UInt64.toNat_ofNat_of_lt' (Nat.lt_of_le_of_lt (part_le ..) n.toNat_lt_size)

/-- The share of a thread is computed without an overflow: even with the
remainder, which falls to the last thread, it is not larger than the whole. -/
theorem share_eq_ok {n threads thread : UInt64} (h : thread < threads) :
    share n threads thread = .ok (.ofNat (part n.toNat threads.toNat thread.toNat)) := by
  have some_threads : threads ≠ 0 := by
    rintro rfl
    exact absurd h UInt64.not_lt_zero
  have quotient : Checked.div n threads = .ok (n / threads) := if_neg some_threads
  have value := toNat_ofNat_part n threads.toNat thread.toNat
  unfold share
  rw [quotient]
  change (if thread = threads - 1 then _ else _) = _
  split
  · rename_i last
    rw [Checked.rem, if_neg some_threads]
    apply Checked.add_eq_ok_iff.2
    rw [value, part, if_pos ((eq_pred_iff h).1 last), UInt64.toNat_div, UInt64.toNat_mod]
  · rename_i inner
    apply congrArg Except.ok
    rw [← UInt64.toNat_inj, value, part, if_neg fun last => inner ((eq_pred_iff h).2 last),
      UInt64.toNat_div, Nat.add_zero]

/-- The first threads together take equal parts, and the remainder as well if
the last one is among them. -/
theorem sum_part_of_le {k : Nat} (h : k ≤ threads) :
    ((List.range k).map (part n threads)).sum =
      k * (n / threads) + if k = threads ∧ 0 < k then n % threads else 0 := by
  induction k with
  | zero => simp
  | succ k ih =>
    have inner : ¬ (k = threads ∧ 0 < k) := by omega
    rw [List.range_succ, List.map_append, List.sum_append, ih (by omega), if_neg inner,
      List.map_singleton, List.sum_singleton, part, Nat.succ_mul, Nat.add_zero, ← Nat.add_assoc]
    congr 1
    by_cases last : k + 1 = threads
    · rw [if_pos last, if_pos ⟨last, Nat.succ_pos k⟩]
    · rw [if_neg last, if_neg fun h => last h.1]

/-- Nothing is lost and nothing done twice: the parts of all threads sum to the
whole, whatever remains when it is divided by their number. -/
theorem sum_part (n : Nat) (h : 0 < threads) :
    ((List.range threads).map (part n threads)).sum = n := by
  rw [sum_part_of_le (Nat.le_refl threads), if_pos ⟨rfl, h⟩]
  exact Nat.div_add_mod n threads

/-- A share is larger than an equal one by less than the number of threads.
This bounds the numbers of the keys in a share: they go beyond the whole by no
more than that for each thread. -/
theorem part_mul_le (n threads i : Nat) :
    part n threads i * threads ≤ n + (threads - 1) * (threads - 1) := by
  have whole := Nat.div_add_mod n threads
  rw [Nat.mul_comm] at whole
  unfold part
  split
  · rename_i last
    have remainder : n % threads ≤ threads - 1 := by
      have := Nat.mod_lt n (show 0 < threads by omega)
      omega
    have spread : n % threads * threads = n % threads + n % threads * (threads - 1) := by
      obtain ⟨m, rfl⟩ : ∃ m, threads = m + 1 := ⟨i, last.symm⟩
      rw [Nat.add_sub_cancel, Nat.mul_succ, Nat.add_comm]
    have square := Nat.mul_le_mul_right (threads - 1) remainder
    rw [Nat.add_mul, spread]
    omega
  · rw [Nat.add_zero]
    omega

/-! ## All threads -/

theorem mem_threadIds {thread threads : UInt64} :
    thread ∈ threadIds threads ↔ thread < threads := by
  rw [threadIds, List.mem_map, UInt64.lt_iff_toNat_lt]
  constructor
  · rintro ⟨i, member, rfl⟩
    have bound := List.mem_range.1 member
    rwa [UInt64.toNat_ofNat_of_lt' (Nat.lt_trans bound threads.toNat_lt_size)]
  · intro below
    exact ⟨thread.toNat, List.mem_range.2 below, UInt64.ofNat_toNat⟩

/-- The parts of all threads make up the whole. -/
theorem sum_threadIds {threads : UInt64} (n : Nat) (some_thread : 0 < threads) :
    ((threadIds threads).map fun thread => part n threads.toNat thread.toNat).sum = n := by
  refine Eq.trans (congrArg List.sum ?_) (sum_part n (UInt64.lt_iff_toNat_lt.1 some_thread))
  rw [threadIds, List.map_map]
  refine List.map_congr_left fun i hi => ?_
  have bound := List.mem_range.1 hi
  rw [Function.comp_apply, UInt64.toNat_ofNat_of_lt' (Nat.lt_trans bound threads.toNat_lt_size)]

/-- A computation that succeeds for everyone succeeds for all together. -/
theorem mapM_eq_ok_of_forall {ε α β : Type} {f : α → Except ε β} {g : α → β} {list : List α}
    (h : ∀ a ∈ list, f a = .ok (g a)) : list.mapM f = .ok (list.map g) := by
  induction list with
  | nil => rfl
  | cons a list ih =>
    rw [List.mapM_cons, h a List.mem_cons_self, ih fun b hb => h b (List.mem_cons_of_mem _ hb)]
    rfl

end TableProbe.Partition
