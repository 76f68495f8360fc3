import TableProbe.Histogram.Basic

/-!
# Where values fall

A bin is determined by how often the range of the bins of one unit has to be
doubled to include its values, and by the step within that doubling.  So larger
values never fall into lower bins; the bin of a value ends within the range of
all bins (`Bins.highest_lt_span`), and the last value of a bin is in that bin
(`Bins.Regular.highest_highest`).
-/

namespace TableProbe.Bins

variable (b : Bins) {value other d : Nat}

/-! ## Doublings -/

/-- The range of a single unit, doubled as often as a value needs, includes the
value. -/
theorem lt_of_doubling (value : Nat) : value < 2 ^ (b.unit + b.magnitude + b.doubling value) := by
  unfold doubling
  have below : value ≤ value ||| (2 ^ b.magnitude - 1) <<< b.unit := Nat.left_le_or
  generalize value ||| (2 ^ b.magnitude - 1) <<< b.unit = spread at below ⊢
  have above : spread < 2 ^ (spread.log2 + 1) := Nat.lt_log2_self
  apply Nat.lt_of_le_of_lt below
  apply Nat.lt_of_lt_of_le above
  apply Nat.pow_le_pow_right (by decide)
  omega

/-- The range is not doubled more often than the value needs: with one doubling
less it would not include the value. -/
theorem le_of_doubling_pos (some_bits : 0 < b.magnitude) (h : 0 < b.doubling value) :
    2 ^ (b.unit + b.magnitude + b.doubling value - 1) ≤ value := by
  have mask : (2 ^ b.magnitude - 1) <<< b.unit < 2 ^ (b.unit + b.magnitude) := by
    have pos : 0 < 2 ^ b.magnitude := Nat.two_pow_pos _
    rw [Nat.shiftLeft_eq, Nat.pow_add, Nat.mul_comm (2 ^ b.unit)]
    exact Nat.mul_lt_mul_of_pos_right (by omega) (Nat.two_pow_pos _)
  unfold doubling at h ⊢
  have wide (n : Nat) (hn : b.unit + b.magnitude ≤ n) (small : value < 2 ^ n) :
      value ||| (2 ^ b.magnitude - 1) <<< b.unit < 2 ^ n :=
    Nat.or_lt_two_pow small (Nat.lt_of_lt_of_le mask (Nat.pow_le_pow_right (by decide) hn))
  generalize value ||| (2 ^ b.magnitude - 1) <<< b.unit = spread at h wide ⊢
  have spread_ne : spread ≠ 0 := by
    intro zero
    rw [zero, Nat.log2_zero] at h
    omega
  have exponent : b.unit + b.magnitude + (spread.log2 + 1 - (b.unit + b.magnitude)) - 1 =
      spread.log2 := by
    omega
  rw [exponent]
  apply Nat.le_of_not_lt
  intro small
  have less := wide spread.log2 (by omega) small
  exact absurd (Nat.log2_self_le spread_ne) (Nat.not_le_of_lt less)

theorem step_lt (value : Nat) : b.step value < 2 ^ b.magnitude := by
  have above := b.lt_of_doubling value
  rw [step, Nat.shiftRight_eq_div_pow]
  apply Nat.div_lt_of_lt_mul
  rw [← Nat.pow_add]
  rwa [show b.doubling value + b.unit + b.magnitude = b.unit + b.magnitude + b.doubling value
    by omega]

/-- Doubled ranges use the upper half of their steps only.  The values of the
lower half are those of the range before, which has finer steps for them. -/
theorem half_le_step (some_bits : 0 < b.magnitude) (h : 0 < b.doubling value) :
    b.half ≤ b.step value := by
  have below := b.le_of_doubling_pos some_bits h
  rw [half, step, Nat.shiftRight_eq_div_pow, Nat.le_div_iff_mul_le (Nat.two_pow_pos _),
    ← Nat.pow_add]
  rwa [show b.magnitude - 1 + (b.doubling value + b.unit) =
    b.unit + b.magnitude + b.doubling value - 1 by omega]

/-- One more than the largest value that has a bin of its own. -/
def span : Nat := 2 ^ (b.unit + b.magnitude + b.doublings - 1)

theorem doubling_lt (some_bits : 0 < b.magnitude) (some_doublings : 0 < b.doublings)
    (h : value < b.span) : b.doubling value < b.doublings := by
  apply Nat.lt_of_not_le
  intro far
  have below := b.le_of_doubling_pos some_bits (Nat.lt_of_lt_of_le some_doublings far)
  have grow : b.span ≤ 2 ^ (b.unit + b.magnitude + b.doubling value - 1) :=
    Nat.pow_le_pow_right (by decide) (by omega)
  omega

theorem lt_span_of_doubling_lt (h : b.doubling value < b.doublings) : value < b.span := by
  have above := b.lt_of_doubling value
  have grow : 2 ^ (b.unit + b.magnitude + b.doubling value) ≤ b.span :=
    Nat.pow_le_pow_right (by decide) (by omega)
  omega

/-- A value whose bin exists lies within the range of all bins.  So a value is
replaced by the highest one exactly if it lies beyond that range. -/
theorem lt_span_of_index_lt (some_bits : 0 < b.magnitude) (some_doublings : 0 < b.doublings)
    (h : b.index value < b.count) : value < b.span := by
  apply b.lt_span_of_doubling_lt
  rcases Nat.eq_zero_or_pos (b.doubling value) with zero | pos
  · omega
  · have steps := b.half_le_step some_bits pos
    unfold index count at h
    rw [Nat.succ_mul, Nat.succ_mul] at h
    have rows : b.doubling value * b.half < b.doublings * b.half := by omega
    exact Nat.lt_of_mul_lt_mul_right rows

/-- The two bounds of a value determine how often the range is doubled for it. -/
theorem doubling_eq (some_bits : 0 < b.magnitude) (above : value < 2 ^ (b.unit + b.magnitude + d))
    (below : 0 < d → 2 ^ (b.unit + b.magnitude + d - 1) ≤ value) : b.doubling value = d := by
  have above' := b.lt_of_doubling value
  rcases Nat.lt_trichotomy (b.doubling value) d with less | same | more
  · have grow : 2 ^ (b.unit + b.magnitude + b.doubling value) ≤
        2 ^ (b.unit + b.magnitude + d - 1) :=
      Nat.pow_le_pow_right (by decide) (by omega)
    have := below (by omega)
    omega
  · exact same
  · have below' := b.le_of_doubling_pos some_bits (Nat.zero_lt_of_lt more)
    have grow :
        2 ^ (b.unit + b.magnitude + d) ≤ 2 ^ (b.unit + b.magnitude + b.doubling value - 1) :=
      Nat.pow_le_pow_right (by decide) (by omega)
    omega

theorem doubling_mono (some_bits : 0 < b.magnitude) (h : value ≤ other) :
    b.doubling value ≤ b.doubling other := by
  apply Nat.le_of_not_lt
  intro less
  have below := b.le_of_doubling_pos some_bits (Nat.zero_lt_of_lt less)
  have above := b.lt_of_doubling other
  have grow : 2 ^ (b.unit + b.magnitude + b.doubling other) ≤
      2 ^ (b.unit + b.magnitude + b.doubling value - 1) :=
    Nat.pow_le_pow_right (by decide) (by omega)
  omega

/-! ## Ends of bins -/

/-- How many values fall into the same bin. -/
def width (value : Nat) : Nat := 2 ^ (b.doubling value + b.unit)

theorem width_pos (value : Nat) : 0 < b.width value := Nat.two_pow_pos _

theorem step_eq (value : Nat) : b.step value = value / b.width value :=
  Nat.shiftRight_eq_div_pow _ _

theorem lowest_eq (value : Nat) : b.lowest value = b.step value * b.width value :=
  Nat.shiftLeft_eq _ _

/-- A bin ends within the range of its own doubling, so all its values need
equally many doublings. -/
theorem lowest_add_width_le (value : Nat) :
    b.lowest value + b.width value ≤ 2 ^ (b.unit + b.magnitude + b.doubling value) := by
  have rows := Nat.mul_le_mul_right (b.width value) (Nat.succ_le_of_lt (b.step_lt value))
  rw [Nat.succ_mul, width, ← Nat.pow_add] at rows
  rw [lowest_eq, width]
  rwa [show b.unit + b.magnitude + b.doubling value = b.magnitude + (b.doubling value + b.unit)
    by omega]

/-- The bin of a value ends within the range of all bins, so the end of a bin
can be recorded as a value of its own. -/
theorem highest_lt_span (some_bits : 0 < b.magnitude) (some_doublings : 0 < b.doublings)
    (h : value < b.span) : b.highest value < b.span := by
  unfold highest
  split
  · rename_i full
    omega
  · have row := b.doubling_lt some_bits some_doublings h
    have bound : 2 ^ (b.unit + b.magnitude + b.doubling value) ≤ b.span :=
      Nat.pow_le_pow_right (by decide) (by omega)
    have last := b.lowest_add_width_le value
    have pos := b.width_pos value
    have word : 0 < maxWord := by decide
    rw [← width]
    omega

/-- Bins that tell some values apart, all of which are words. -/
structure Regular (b : Bins) : Prop where
  bits : 0 < b.magnitude
  doublings : 0 < b.doublings
  words : b.span ≤ maxWord

variable {b}

/-- The bin of a value ends just before the next one begins.  The definition
saturates on the way to that; within the range of all bins there is no need to. -/
theorem Regular.highest_eq (regular : b.Regular) (h : value < b.span) :
    b.highest value = b.lowest value + b.width value - 1 := by
  have row := b.doubling_lt regular.bits regular.doublings h
  have bound : 2 ^ (b.unit + b.magnitude + b.doubling value) ≤ b.span :=
    Nat.pow_le_pow_right (by decide) (by omega)
  have last := b.lowest_add_width_le value
  have words := regular.words
  unfold highest
  rw [if_neg (by omega), ← width, Nat.min_eq_left (by omega)]

theorem Regular.le_highest (regular : b.Regular) (h : value < b.span) :
    value ≤ b.highest value := by
  have part := Nat.div_add_mod value (b.width value)
  have rest := Nat.mod_lt value (b.width_pos value)
  rw [regular.highest_eq h, lowest_eq, step_eq, Nat.mul_comm]
  omega

/-- The bin of a larger value does not end earlier.  So of some values the
largest is the one whose bin ends last, and it can be told from the bins. -/
theorem Regular.highest_mono (regular : b.Regular) (le : value ≤ other) (h : other < b.span) :
    b.highest value ≤ b.highest other := by
  have ends := regular.highest_eq (Nat.lt_of_le_of_lt le h)
  rcases Nat.lt_or_eq_of_le (b.doubling_mono regular.bits le) with less | same
  · -- the bin ends before the doubling of the other value begins
    have last := b.lowest_add_width_le value
    have begins := b.le_of_doubling_pos regular.bits (Nat.zero_lt_of_lt less)
    have grow : 2 ^ (b.unit + b.magnitude + b.doubling value) ≤
        2 ^ (b.unit + b.magnitude + b.doubling other - 1) :=
          Nat.pow_le_pow_right (by decide) (by omega)
    have above := regular.le_highest h
    omega
  · have widths : b.width value = b.width other := by rw [width, width, same]
    have steps : b.step value ≤ b.step other := by
      rw [step_eq, step_eq, widths]
      exact Nat.div_le_div_right le
    have rows := Nat.mul_le_mul_right (b.width other) steps
    rw [ends, regular.highest_eq h, lowest_eq, lowest_eq, widths]
    omega

/-- The bin of the larger one of two values ends where the later one of their
bins ends. -/
theorem Regular.highest_max (regular : b.Regular) (h : value < b.span) (h' : other < b.span) :
    b.highest (max value other) = max (b.highest value) (b.highest other) := by
  rcases Nat.le_total value other with le | le
  · rw [Nat.max_eq_right le, Nat.max_eq_right (regular.highest_mono le h')]
  · rw [Nat.max_eq_left le, Nat.max_eq_left (regular.highest_mono le h)]

/-- The last value of a bin is in that bin.  So a value that was replaced by
the end of its bin is not moved again. -/
theorem Regular.highest_highest (regular : b.Regular) (h : value < b.span) :
    b.highest (b.highest value) = b.highest value := by
  have ends := regular.highest_eq h
  have last := b.lowest_add_width_le value
  have pos := b.width_pos value
  have above := regular.le_highest h
  have doubling : b.doubling (b.highest value) = b.doubling value :=
    b.doubling_eq regular.bits (by omega) fun some_doubling =>
      Nat.le_trans (b.le_of_doubling_pos regular.bits some_doubling) above
  have widths : b.width (b.highest value) = b.width value := by rw [width, width, doubling]
  have step : b.step (b.highest value) = b.step value := by
    rw [step_eq, widths]
    rw [lowest_eq] at ends
    exact Nat.div_eq_of_lt_le (by omega) (by rw [Nat.succ_mul]; omega)
  rw [regular.highest_eq (b.highest_lt_span regular.bits regular.doublings h), lowest_eq, step,
    widths, ends, lowest_eq]

end TableProbe.Bins
