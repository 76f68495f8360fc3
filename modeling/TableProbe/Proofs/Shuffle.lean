import Mathlib.Data.List.FinRange
import Mathlib.Data.Nat.Factorial.Basic
import Mathlib.GroupTheory.Perm.Basic
import Mathlib.Logic.Equiv.Fin.Basic
import TableProbe.Shuffle

/-!
# What a shuffle does

Every position that is drawn lies at or before the one that it is exchanged
with (`Shuffle.Draw.positions_le`).  What carries this through a chunk is that
the chunk stays below the product of the bounds of the positions still in it.
Since the positions come from the generator alone, a shuffle puts the entries
of every sequence of one length into the same new order
(`Shuffle.shuffle_eq_ofFn`).
-/

namespace TableProbe

/-- A number drawn below a bound is below it.  A number that is carried over
was not the last one below the bound, since the part cut off is too small
there. -/
theorem Generator.below_lt (g : Generator) {bound : Nat} (pos : 0 < bound)
    (small : bound ≤ 2 ^ 32) : (g.below bound).1 < bound := by
  have word : g.nextHalf.1.toNat < 2 ^ 32 := g.nextHalf.1.toNat_lt
  have product : g.nextHalf.1.toNat * bound ≤ (2 ^ 32 - 1) * bound :=
    Nat.mul_le_mul_right bound (Nat.le_sub_one_of_lt word)
  unfold below
  dsimp only
  generalize g.nextHalf.1.toNat * bound = wide at product ⊢
  split
  · dsimp only
    split
    · omega
    · omega
  · omega

namespace Shuffle

/-! ## Positions -/

/-- A product of consecutive numbers is extended to a longer one of the same
kind, which still fits into 32 bits. -/
theorem extend_ascFactorial {m k : Nat} (small : m.ascFactorial k < 2 ^ 32) :
    ∃ l, k ≤ l ∧ m.ascFactorial l < 2 ^ 32 ∧
      extend (m.ascFactorial k) (m + k) = (m.ascFactorial l, m + l) := by
  generalize start : m.ascFactorial k = product at small ⊢
  generalize place : m + k = next
  fun_induction extend product next generalizing k with
  | case1 product next room ih =>
    have longer : m.ascFactorial (k + 1) = product * next := by
      rw [Nat.ascFactorial_succ, start, place, Nat.mul_comm]
    obtain ⟨l, le, below, same⟩ := ih longer room.1 (congrArg Nat.succ place)
    exact ⟨l, Nat.le_of_succ_le le, below, same⟩
  | case2 product next full => exact ⟨k, Nat.le_refl k, start ▸ small, by rw [start, place]⟩

/-- A block is a product of consecutive numbers, at least one of them, and fits
into a half word. -/
theorem block_eq {m : Nat} (small : m < 2 ^ 32) :
    ∃ size, block m = (m.ascFactorial (size + 1), size + 1) ∧
      m.ascFactorial (size + 1) < 2 ^ 32 := by
  have one : m.ascFactorial 1 = m := Nat.mul_one m
  obtain ⟨l, le, below, same⟩ :=
    extend_ascFactorial (one.symm ▸ small : m.ascFactorial 1 < 2 ^ 32)
  rw [one] at same
  obtain ⟨size, rfl⟩ := Nat.exists_eq_add_of_le' le
  refine ⟨size, ?_, below⟩
  rw [block, same]
  exact congrArg (Prod.mk _) (Nat.add_sub_cancel_left ..)

namespace Draw

variable {d : Draw}

/-- The chunk is below the product of the bounds of the positions that are
still in it. -/
def Covers (d : Draw) : Prop := 0 < d.left → d.chunk < (d.drawn + 1).ascFactorial d.left

theorem covers_start (g : Generator) : (start g).Covers := fun _ => Nat.one_pos

/-- There is a position to take after a refill, and the chunk is in range for
it and those behind it. -/
theorem chunk_refill_lt (covers : d.Covers) (small : d.drawn + 1 < 2 ^ 32) :
    d.refill.chunk < (d.drawn + 1).ascFactorial (d.refill.left + 1) := by
  unfold refill
  split
  · rename_i left some_left
    have inside := covers (some_left ▸ Nat.succ_pos left)
    rwa [some_left] at inside
  · obtain ⟨size, block_eq, fits⟩ := block_eq small
    have pos : 0 < (d.drawn + 1).ascFactorial (size + 1) := Nat.ascFactorial_pos d.drawn _
    dsimp only
    rw [block_eq]
    exact d.generator.below_lt pos (Nat.le_of_lt fits)

/-- One position: it is in range, and so is what is left of the chunk.  The
first fact needs the second one of the draw before, so both are kept together
along the draws. -/
theorem position_le (covers : d.Covers) (small : d.drawn + 1 < 2 ^ 32) :
    d.position.1 ≤ d.drawn ∧ d.position.2.Covers ∧ d.position.2.drawn = d.drawn + 1 := by
  have inside := chunk_refill_lt covers small
  unfold position
  dsimp only
  by_cases last : d.refill.left = 0
  · rw [if_pos last]
    rw [last] at inside
    refine ⟨?_, fun more => absurd last (Nat.ne_of_gt more), rfl⟩
    rw [Nat.ascFactorial_succ, Nat.ascFactorial_zero] at inside
    exact Nat.le_of_lt_succ (by simpa using inside)
  · rw [if_neg last]
    refine ⟨Nat.le_of_lt_succ (Nat.mod_lt _ (Nat.succ_pos _)), fun _ => ?_, rfl⟩
    rw [Nat.ascFactorial_succ, ← Nat.succ_ascFactorial] at inside
    exact Nat.div_lt_of_lt_mul inside

theorem length_positions (n : Nat) (d : Draw) : (positions n d).1.length = n := by
  induction n generalizing d with
  | zero => rfl
  | succ n ih => exact congrArg Nat.succ (ih _)

/-- Every position that is drawn lies at or before the one that it is exchanged
with. -/
theorem positions_le {n : Nat} (covers : d.Covers) (small : d.drawn + n < 2 ^ 32) {k : Nat}
    (h : k < (positions n d).1.length) : (positions n d).1[k] ≤ d.drawn + k := by
  induction n generalizing d k with
  | zero => cases h
  | succ n ih =>
    obtain ⟨first, rest, drawn⟩ := position_le covers (by omega)
    cases k with
    | zero => exact first
    | succ k =>
      have later := ih rest (by omega) (Nat.lt_of_succ_lt_succ h)
      rw [drawn, Nat.succ_add_eq_add_succ] at later
      exact later

/-- A shuffle draws one position for each entry, and every exchange is in
bounds. -/
theorem exists_positions {n : Nat} (small : n < 2 ^ 32) (g : Generator) :
    ∃ drawn d, (start g).positions n = (drawn, d) ∧ drawn.length = n ∧
      ∀ k (h : k < drawn.length), drawn[k] ≤ k := by
  refine ⟨_, _, rfl, length_positions n _, fun k h => ?_⟩
  have inside := positions_le (covers_start g) ((Nat.zero_add n).trans_lt small) h
  exact inside.trans_eq (Nat.zero_add k)

end Draw

/-! ## The new order -/

section

variable {α : Type} {n : Nat}

/-- Exchanges two positions, if there are both. -/
def transposition (n i j : Nat) : Equiv.Perm (Fin n) :=
  if h : i < n ∧ j < n then Equiv.swap ⟨i, h.1⟩ ⟨j, h.2⟩ else 1

/-- From which place each place takes its entry when position `i` is exchanged
with the first listed position, position `i + 1` with the second, and so on. -/
def sourceOf (n : Nat) : Nat → List Nat → Equiv.Perm (Fin n)
  | _, [] => 1
  | i, j :: rest => transposition n i j * sourceOf n (i + 1) rest

/-- After an exchange each place has the entry of the place that the
transposition takes it to.  If one of the places does not exist, then nothing
is exchanged. -/
theorem get_swapIfInBounds (xs : Vector α n) (i j : Nat) (place : Fin n) :
    (xs.swapIfInBounds i j).get place = xs.get (transposition n i j place) := by
  unfold transposition
  by_cases both : i < n ∧ j < n
  · have swapped : xs.swapIfInBounds i j = xs.swap i j both.1 both.2 := by
      rcases xs with ⟨xs, rfl⟩
      rw [Vector.swapIfInBounds_mk, Vector.mk_eq, Array.swapIfInBounds_def, dif_pos both.1,
        dif_pos both.2]
      rfl
    rw [dif_pos both, Equiv.swap_apply_def, swapped]
    change (xs.swap i j both.1 both.2)[place.val] = _
    rw [Vector.getElem_swap]
    simp only [Fin.ext_iff]
    split_ifs
    · rfl
    · rfl
    · rfl
  · have same : xs.swapIfInBounds i j = xs := by
      rcases xs with ⟨xs, rfl⟩
      rw [Vector.swapIfInBounds_mk, Vector.mk_eq, Array.swapIfInBounds_def]
      split_ifs with left right
      · exact absurd ⟨left, right⟩ both
      · rfl
      · rfl
    rw [dif_neg both, same]
    rfl

/-- A whole row of exchanges is one new order of the places, the same for
sequences of all types.  By induction on the listed positions. -/
theorem exchange_eq_ofFn (xs : Vector α n) (i : Nat) (positions : List Nat) :
    exchange xs i positions = Vector.ofFn fun place => xs.get (sourceOf n i positions place) := by
  induction positions generalizing xs i with
  | nil =>
    ext k hk
    rw [Vector.getElem_ofFn]
    rfl
  | cons j rest ih =>
    rw [exchange, ih]
    simp only [get_swapIfInBounds]
    rfl

/-- The new order of a sequence of a certain length: from which place each
place takes its entry. -/
def order (n : Nat) (g : Generator) : Equiv.Perm (Fin n) :=
  sourceOf n 0 ((Draw.start g).positions n).1

/-- The generator after a shuffle. -/
def after (n : Nat) (g : Generator) : Generator := ((Draw.start g).positions n).2.generator

/-- The new order of a shuffled sequence and the generator after it depend on
its length only. -/
theorem shuffle_eq_ofFn (xs : Vector α n) (g : Generator) :
    shuffle xs g = (Vector.ofFn fun place => xs.get (order n g place), after n g) :=
  congrArg (Prod.mk · _) (exchange_eq_ofFn xs 0 _)

/-- A shuffled sequence has the same entries. -/
theorem perm_shuffle (xs : Vector α n) (g : Generator) :
    (shuffle xs g).1.toList.Perm xs.toList := by
  have plain : xs.toList = List.ofFn xs.get := by
    rw [← Vector.toList_ofFn]
    exact congrArg Vector.toList Vector.ofFn_getElem.symm
  rw [shuffle_eq_ofFn, Vector.toList_ofFn, plain]
  exact (order n g).ofFn_comp_perm xs.get

/-- A shuffle makes the exchanges at the positions that are drawn.  What this
does to a sequence can be told without them: each place takes its entry from
the one that the new order names. -/
theorem shuffle_reorders (xs : Vector α n) (g : Generator) :
    ∃ ys, shuffle xs g = (ys, after n g) ∧ ys = exchange xs 0 ((Draw.start g).positions n).1 ∧
      (∀ place, ys.get place = xs.get (order n g place)) ∧ ys.toList.Perm xs.toList := by
  have moved : exchange xs 0 ((Draw.start g).positions n).1 = _ := exchange_eq_ofFn xs 0 _
  refine ⟨_, rfl, rfl, fun place => ?_, perm_shuffle xs g⟩
  rw [moved]
  exact Vector.getElem_ofFn place.isLt

end

end Shuffle

end TableProbe
