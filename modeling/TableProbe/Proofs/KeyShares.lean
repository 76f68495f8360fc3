import Mathlib.Data.List.Nodup
import Mathlib.Data.Set.Card
import TableProbe.Proofs.KeyOrder
import TableProbe.Proofs.Partition

/-!
# Keys of all shares

Splitting a number of items between threads loses nothing, whatever the number
of threads is (`Partition.splits_without_loss`).  If the items are keys, then
those of one thread differ by their places and those of two threads by their
owners, so there are as many keys as items.
-/

namespace TableProbe

open TableProbe.Partition (part threadIds)

/-! ## The keys that fall to threads -/

theorem Partition.nodup_threadIds (threads : UInt64) : (threadIds threads).Nodup := by
  refine List.nodup_range.map_on fun i hi j hj same => ?_
  have size := threads.toNat_lt_size
  rw [List.mem_range] at hi hj
  rw [← UInt64.toNat_inj, UInt64.toNat_ofNat_of_lt' (by omega),
    UInt64.toNat_ofNat_of_lt' (by omega)] at same
  exact same

/-- The places below a share, as numbers. -/
theorem Partition.lt_share_iff {n threads thread seq count : UInt64} (member : thread < threads)
    (shared : share n threads thread = .ok count) :
    seq < count ↔ seq.toNat < part n.toNat threads.toNat thread.toNat := by
  rw [share_eq_ok member] at shared
  rw [UInt64.lt_iff_toNat_lt, ← Except.ok.inj shared, toNat_ofNat_part]

/-- Every place below a share is one of a word. -/
theorem Partition.toNat_ofNat_of_lt_part {n threads : UInt64} {i seq : Nat}
    (within : seq < part n.toNat threads.toNat i) : (UInt64.ofNat seq).toNat = seq :=
  UInt64.toNat_ofNat_of_lt'
    (Nat.lt_of_lt_of_le within (Nat.le_trans (part_le ..) (Nat.le_of_lt n.toNat_lt_size)))

namespace KeySpace

variable (space : KeySpace) {n : Nat}

/-- The keys that fall to all threads if `n` are shared out. -/
def sharedKeys (n : Nat) : List Bytes :=
  (threadIds space.threads).flatMap fun thread =>
    (List.range (part n space.threads.toNat thread.toNat)).map (space.keyAt thread)

/-- As many keys are shared out as were asked for: the shares of all threads
add up. -/
theorem length_sharedKeys (n : Nat) : (space.sharedKeys n).length = n := by
  rw [sharedKeys, List.length_flatMap]
  simp only [List.length_map, List.length_range]
  exact Partition.sum_threadIds n space.threads_pos

/-- No key is shared out twice.  The keys of one thread differ in their places,
and those of two threads in their owners. -/
theorem nodup_sharedKeys (fits : ∀ thread < space.threads,
      ∀ seq < part n space.threads.toNat thread.toNat, space.numberAt thread seq < 2 ^ 64) :
    (space.sharedKeys n).Nodup := by
  refine List.nodup_flatMap.2 ⟨fun thread member => ?_, ?_⟩
  · have fits := fits thread (Partition.mem_threadIds.1 member)
    refine List.nodup_range.map_on fun seq here other there same => ?_
    exact (space.keyAt_inj (fits seq (List.mem_range.1 here))
      (fits other (List.mem_range.1 there))).1 same
  · have apart := Partition.nodup_threadIds space.threads
    refine apart.pairwise_of_forall_ne fun thread member thread' member' differ => ?_
    intro key here there
    obtain ⟨seq, within, rfl⟩ := List.mem_map.1 here
    obtain ⟨other, within', same⟩ := List.mem_map.1 there
    have below := Partition.mem_threadIds.1 member
    have below' := Partition.mem_threadIds.1 member'
    have owner := space.ownerOf_keyAt (fits thread below seq (List.mem_range.1 within)) below
    rw [← same, space.ownerOf_keyAt (fits thread' below' other (List.mem_range.1 within'))
      below'] at owner
    exact differ (UInt64.toNat_inj.1 owner.symm)

/-- Every key can be made that falls to a thread if `n` are shared out. -/
def Makes (n : UInt64) : Prop :=
  ∀ thread < space.threads, ∀ count, Partition.share n space.threads thread = .ok count →
    ∀ seq < count, ∃ key, space.key seq thread = .ok key

/-- The keys that threads can make in their shares if `n` are shared out. -/
def keysOfShares (n : UInt64) : Set Bytes :=
  {key | ∃ thread < space.threads, ∃ count, Partition.share n space.threads thread = .ok count ∧
    ∃ seq < count, space.key seq thread = .ok key}

variable {space} {n : UInt64}

/-- If all keys of the shares can be made, then each of them is the one with
the number of its place, and this number fits into 64 bits. -/
theorem Makes.key_eq (makes : space.Makes n) {thread : UInt64} (member : thread < space.threads)
    {seq : Nat} (within : seq < part n.toNat space.threads.toNat thread.toNat) :
    space.key (.ofNat seq) thread = .ok (space.keyAt thread seq) ∧
      space.numberAt thread seq < 2 ^ 64 := by
  have value := Partition.toNat_ofNat_of_lt_part within
  have share := Partition.share_eq_ok (n := n) member
  obtain ⟨key, made⟩ := makes thread member _ share (.ofNat seq)
    ((Partition.lt_share_iff member share).2 (value.symm ▸ within))
  obtain ⟨fits, -, same⟩ := space.key_eq_ok_iff.1 made
  rw [value] at fits same
  exact ⟨same ▸ made, fits⟩

theorem Makes.mem_sharedKeys (makes : space.Makes n) {key : Bytes} :
    key ∈ space.sharedKeys n.toNat ↔ key ∈ space.keysOfShares n := by
  rw [sharedKeys, List.mem_flatMap]
  constructor
  · rintro ⟨thread, member, mem⟩
    obtain ⟨seq, within, rfl⟩ := List.mem_map.1 mem
    have member := Partition.mem_threadIds.1 member
    have within := List.mem_range.1 within
    have share := Partition.share_eq_ok (n := n) member
    have value := Partition.toNat_ofNat_of_lt_part within
    have place := (Partition.lt_share_iff member share).2 (value.symm ▸ within)
    exact ⟨thread, member, _, share, _, place, (makes.key_eq member within).1⟩
  · rintro ⟨thread, member, count, share, seq, within, made⟩
    refine ⟨thread, Partition.mem_threadIds.2 member, List.mem_map.2 ⟨seq.toNat, ?_, ?_⟩⟩
    · exact List.mem_range.2 ((Partition.lt_share_iff member share).1 within)
    · exact (space.key_eq_ok_iff.1 made).2.2.symm

/-- There are as many keys as are shared out. -/
theorem Makes.encard_eq (makes : space.Makes n) : (space.keysOfShares n).encard = n.toNat := by
  have all : space.keysOfShares n = ((space.sharedKeys n.toNat).toFinset : Set Bytes) := by
    ext key
    rw [List.coe_toFinset]
    exact makes.mem_sharedKeys.symm
  have differ := space.nodup_sharedKeys fun thread member seq within =>
    (makes.key_eq member within).2
  rw [all, Set.encard_coe_eq_coe_finsetCard, List.toFinset_card_of_nodup differ,
    length_sharedKeys]

end KeySpace

/-! ## The split as a whole -/

namespace Partition

/-- Items are split between threads without loss.  Every thread gets its share;
all shares but the last are equal, the last one is larger by less than the
number of threads, and together they are all items.  So if the items are keys,
and none of them is too large to be made, then there are as many different ones
as items. -/
theorem splits_without_loss (n threads : UInt64) (some_thread : 0 < threads) :
    ∃ equal last : UInt64,
      (∀ thread < threads, share n threads thread =
        .ok (if thread = threads - 1 then last else equal)) ∧
      (∃ shares, (threadIds threads).mapM (share n threads) = .ok shares ∧
        (shares.map UInt64.toNat).sum = n.toNat) ∧
      equal.toNat ≤ last.toNat ∧ last.toNat < equal.toNat + threads.toNat ∧
      ∀ space : KeySpace, space.threads = threads → space.Makes n →
        (space.keysOfShares n).encard = n.toNat := by
  have pos : 0 < threads.toNat := UInt64.lt_iff_toNat_lt.1 some_thread
  have whole := Nat.div_add_mod n.toNat threads.toNat
  have quotient : n.toNat / threads.toNat ≤ threads.toNat * (n.toNat / threads.toNat) :=
    Nat.le_mul_of_pos_left _ pos
  have remainder := Nat.mod_lt n.toNat pos
  have size := n.toNat_lt_size
  have equal : (UInt64.ofNat (n.toNat / threads.toNat)).toNat = n.toNat / threads.toNat :=
    UInt64.toNat_ofNat_of_lt' (by omega)
  have last : (UInt64.ofNat (n.toNat / threads.toNat + n.toNat % threads.toNat)).toNat =
      n.toNat / threads.toNat + n.toNat % threads.toNat := UInt64.toNat_ofNat_of_lt' (by omega)
  refine ⟨.ofNat (n.toNat / threads.toNat),
    .ofNat (n.toNat / threads.toNat + n.toNat % threads.toNat), fun thread member => ?_, ?_,
    by omega, by omega, ?_⟩
  · rw [share_eq_ok member, part]
    by_cases final : thread = threads - 1
    · rw [if_pos final, if_pos ((eq_pred_iff member).1 final)]
    · rw [if_neg final, if_neg fun h => final ((eq_pred_iff member).2 h), Nat.add_zero]
  · refine ⟨_, mapM_eq_ok_of_forall fun thread member => share_eq_ok (mem_threadIds.1 member), ?_⟩
    refine Eq.trans (congrArg List.sum ?_) (sum_threadIds n.toNat some_thread)
    rw [List.map_map]
    exact List.map_congr_left fun thread _ => toNat_ofNat_part ..
  · rintro space rfl makes
    exact makes.encard_eq

/-- Seven keys of sixteen bytes are shared out between three threads. -/
theorem splits_without_loss_three_threads :
    (0 : UInt64) < 3 ∧ ∃ space, KeySpace.new? 3 16 = .ok space ∧ space.threads = 3 ∧
      space.Makes 7 ∧ (space.keysOfShares 7).encard = 7 := by
  obtain ⟨_, _, -, -, -, -, keys⟩ := splits_without_loss 7 3 (by decide)
  refine ⟨by decide, ⟨3, 16, by decide, by decide⟩, rfl, rfl, ?_⟩
  have makes : KeySpace.Makes ⟨3, 16, by decide, by decide⟩ 7 := by
    intro thread member count share seq within
    have few : seq.toNat < 7 :=
      Nat.lt_of_lt_of_le ((lt_share_iff member share).1 within) (part_le ..)
    have below : thread.toNat < 3 := UInt64.lt_iff_toNat_lt.1 member
    refine ⟨_, (KeySpace.key_eq_ok_iff _).2 ⟨?_, by decide, rfl⟩⟩
    have number : KeySpace.numberAt ⟨3, 16, by decide, by decide⟩ thread seq.toNat =
        seq.toNat * 3 + thread.toNat := rfl
    omega
  exact ⟨makes, keys _ rfl makes⟩

end Partition

end TableProbe
