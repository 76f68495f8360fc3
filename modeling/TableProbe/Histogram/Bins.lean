import TableProbe.Power

/-!
# Bins of a histogram

Values are sorted into bins whose width grows with the value, so that a value
is known to a fixed number of significant decimal digits.  Values are counted
in units of a power of two.  There are `2 ^ magnitude` bins of one unit; above
them each further doubling of the value has half as many bins, each twice as
wide as those of the doubling below.
-/

namespace TableProbe

/-- What a histogram is to tell apart: values from `low` to `high`, to so many
significant digits. -/
structure Bounds where
  low : Nat
  high : Nat
  digits : Nat
  deriving DecidableEq, Repr

/-- Why there is no histogram with certain bounds. -/
inductive BoundsError
  | lowIsZero
  | lowTooLarge
  | highTooSmall
  | tooManyDigits
  | tooFine
  deriving DecidableEq, Repr

/-- The text that refused bounds are reported with. -/
def BoundsError.message : BoundsError → String
  | lowIsZero => "Lowest discernible value must be >= 1"
  | lowTooLarge => "Lowest discernible value must be <= `u64::MAX / 2`"
  | highTooSmall =>
    "Highest trackable value must be >= 2 * lowest discernible value for some internal " ++
      "calculations"
  | tooManyDigits => "Number of significant digits must be in the range `[0, 5]`"
  | tooFine => "Cannot represent sigfig worth of values beyond the lowest discernible value"

/-- The largest value and the largest count. -/
def maxWord : Nat := 2 ^ 64 - 1

/-- How values are sorted into bins. -/
structure Bins where
  /-- The largest value that is sure to be told apart from smaller ones. -/
  high : Nat
  /-- A unit is two to the power of this. -/
  unit : Nat
  /-- There are two to the power of this bins of one unit. -/
  magnitude : Nat
  /-- How many doublings have bins of their own, the bins of one unit included. -/
  doublings : Nat
  deriving DecidableEq, Repr

namespace Bins

/-- How many doublings it takes until values up to `reach` include `high`. -/
def doublingsFor (reach high : Nat) : Nat :=
  if 0 < reach ∧ reach ≤ high then doublingsFor (2 * reach) high + 1 else 1
termination_by high + 1 - reach

/-- The logarithm of a unit for a lowest value: the binary logarithm of that
value, rounded down.  It is known to 48 binary places only, so a value within
45 parts in `2 ^ 54` of the next power of two counts as that power. -/
def unitFor (low : Nat) : Nat :=
  let next := low.log2 + 1
  if 2 ^ 54 * (2 ^ next - low) ≤ 45 * 2 ^ next then next else low.log2

/-- The bins for given bounds.  A unit is about the lowest value, rounded down
to a power of two, and there are enough bins of one unit to tell two apart in
the last significant digit. -/
def ofBounds (b : Bounds) : Except BoundsError Bins :=
  if b.low < 1 then .error .lowIsZero
  else if maxWord / 2 < b.low then .error .lowTooLarge
  else if b.high < 2 * b.low then .error .highTooSmall
  else if 5 < b.digits then .error .tooManyDigits
  else
    let unit := unitFor b.low
    let magnitude := (2 * 10 ^ b.digits - 1).log2 + 1
    if 63 < unit + magnitude then .error .tooFine
    else .ok { high := b.high, unit, magnitude
               doublings := doublingsFor (2 ^ (unit + magnitude)) b.high }

/-- The number of bins that each doubling but the first has. -/
def half (b : Bins) : Nat := 2 ^ (b.magnitude - 1)

/-- The number of bins. -/
def count (b : Bins) : Nat := (b.doublings + 1) * b.half

/-- How often the range of the bins of one unit has to be doubled to include a
value. -/
def doubling (b : Bins) (value : Nat) : Nat :=
  (value ||| (2 ^ b.magnitude - 1) <<< b.unit).log2 + 1 - (b.unit + b.magnitude)

/-- A value counted in widths of the bins of its doubling, rounded down. -/
def step (b : Bins) (value : Nat) : Nat := value >>> (b.doubling value + b.unit)

/-- The bin of a value, counted from 0. -/
def index (b : Bins) (value : Nat) : Nat :=
  (b.doubling value + 1) * b.half + b.step value - b.half

/-- The smallest value that falls into the same bin. -/
def lowest (b : Bins) (value : Nat) : Nat := b.step value <<< (b.doubling value + b.unit)

/-- The largest value that falls into the same bin.  The last bin of the full
range is taken to end one short of the largest word, save for that word itself. -/
def highest (b : Bins) (value : Nat) : Nat :=
  if value = maxWord then maxWord
  else min (b.lowest value + 2 ^ (b.doubling value + b.unit)) maxWord - 1

/-- The smallest value of the bin with a number. -/
def valueOf (b : Bins) (index : Nat) : Nat :=
  if index < b.half then index <<< b.unit
  else (index % b.half + b.half) <<< (index / b.half - 1 + b.unit)

/-- The largest value that the last bin holds. -/
def reach (b : Bins) : Nat := b.highest (b.valueOf (b.count - 1))

end Bins

end TableProbe
