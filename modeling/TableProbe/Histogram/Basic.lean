import Std.Data.ExtTreeMap
import TableProbe.Crash
import TableProbe.Histogram.Bins

/-!
# Histograms

A histogram counts how many of the values recorded in it fell into each bin.  A
value beyond the last bin is counted as the highest one of the range.  Counts
stop growing at the largest word.  Quantiles are found by counting from below;
where that count leaves the range of a word, there are none.
-/

namespace TableProbe

/-- How often values of each bin were recorded. -/
structure Histogram where
  bins : Bins
  /-- The count of each bin that holds values. -/
  counts : Std.ExtTreeMap Nat Nat
  /-- The number of recorded values. -/
  total : Nat
  /-- The largest recorded value, with all bits below its unit set; zero if it
  is zero. -/
  peak : Nat

/-- Why two histograms cannot be merged. -/
inductive MergeError
  /-- The second one holds a value beyond the bins of the first one. -/
  | valueExceedsRange
  deriving DecidableEq, Repr

/-- The text that a failed merge is reported with. -/
def MergeError.message : MergeError → String
  | valueExceedsRange => "merging latency histograms: OtherAddendValueExceedsRange"

namespace Histogram

/-- The bounds of latencies: microseconds up to ten seconds, to three digits. -/
def latencyBounds : Bounds := ⟨1, 10000000, 3⟩

/-- The histogram without values. -/
def ofBins (bins : Bins) : Histogram := ⟨bins, ∅, 0, 0⟩

/-- The bins of latencies. -/
def latencyBins : Bins where
  high := 10000000
  unit := 0
  magnitude := 11
  doublings := 14

/-- The bins of latencies, written out, are the ones that their bounds lead to.
So these bounds are never refused, and a histogram of latencies can always be
made. -/
theorem ofBounds_latencyBounds : Bins.ofBounds latencyBounds = .ok latencyBins := by
  have unit : Bins.unitFor 1 = 0 := by decide
  have magnitude : Nat.log2 (2 * 10 ^ 3 - 1) = 10 := by decide
  have doublings : Bins.doublingsFor 2048 10000000 = 14 := by simp [Bins.doublingsFor]
  rw [Bins.ofBounds, latencyBounds, if_neg (by decide), if_neg (by decide), if_neg (by decide),
    if_neg (by decide)]
  dsimp only
  rw [unit, magnitude, if_neg (by decide), show 2 ^ (0 + (10 + 1)) = 2048 from rfl, doublings]
  rfl

/-- The histogram of latencies without values. -/
def emptyLatency : Histogram := ofBins latencyBins

/-- A count that stops growing at the largest word. -/
def saturate (n : Nat) : Nat := min n maxWord

/-- The count of a bin. -/
def countOf (h : Histogram) (index : Nat) : Nat := h.counts[index]?.getD 0

/-- Adds to the count of a bin. -/
def addTo (h : Histogram) (index n : Nat) : Histogram :=
  if n = 0 then h
  else { h with counts := h.counts.insert index (saturate (h.countOf index + n)) }

/-- The value as which a value is counted. -/
def clamp (h : Histogram) (value : Nat) : Nat :=
  if h.bins.index value < h.bins.count then value else h.bins.high

/-- Raises the peak to a value, unless it is as high already. -/
def raise (h : Histogram) (value : Nat) : Histogram :=
  if h.peak < value then { h with peak := value ||| (2 ^ h.bins.unit - 1) } else h

/-- Records a value `n` times.  The peak is raised even if `n` is zero. -/
def recordMany (h : Histogram) (value n : Nat) : Histogram :=
  let value := h.clamp value
  let counted := (h.addTo (h.bins.index value) n).raise value
  { counted with total := saturate (h.total + n) }

/-- Records a value. -/
def record (h : Histogram) (value : Nat) : Histogram := h.recordMany value 1

/-- The largest recorded value, as far as bins tell: the upper end of its bin. -/
def largest (h : Histogram) : Nat := if h.peak = 0 then 0 else h.bins.highest h.peak

/-- Adds counts bin by bin from a histogram with the same bins.  An empty
histogram becomes the other one, and forgets a peak of its own. -/
def addCounts (h other : Histogram) : Histogram :=
  if h.total = 0 then { other with bins := h.bins }
  else
    let sum := other.counts.foldl (fun h index n => h.addTo index n) h
    let sum := { sum with total := saturate (h.total + other.total) }
    if h.largest < other.largest then sum.raise other.largest else sum

/-- Records the values of a histogram with other bins, each as the smallest one
of its bin.  The bin of the largest value takes part even if it is empty. -/
def addValues (h other : Histogram) : Histogram :=
  let top := other.bins.index other.largest
  (other.counts.erase top).foldl (fun h index n => h.recordMany (other.bins.valueOf index) n)
    (h.recordMany (other.bins.valueOf top) (other.countOf top))

/-- Records all that another histogram holds.  An empty one changes nothing. -/
def merge (h other : Histogram) : Except MergeError Histogram :=
  if other.total = 0 then .ok h
  else if h.bins.reach < other.largest then .error .valueExceedsRange
  else if h.bins.unit = other.bins.unit ∧ h.bins.magnitude = other.bins.magnitude ∧
      h.bins.doublings = other.bins.doublings then .ok (h.addCounts other)
  else .ok (h.addValues other)

/-- Merges the histograms that are there into the first of them. -/
def mergeAll (histograms : List (Option Histogram)) : Except MergeError (Option Histogram) :=
  match histograms.filterMap id with
  | [] => .ok none
  | h :: rest => (rest.foldlM merge h).map some

/-- The first of some bins at which at least `target` values were counted,
`seen` of them before these bins. -/
def binWithin (target seen : Nat) : List (Nat × Nat) → Option Nat
  | [] => none
  | (index, n) :: rest =>
    if target ≤ seen + n then some index else binWithin target (seen + n) rest

/-- The first bin at which at least `target` values were counted, `seen` of
them before these blocks of bins.  A block is counted as a whole before one
looks into it, so there is no such bin if the count leaves the range of a word
within the block. -/
def binAmong (target seen : Nat) : List (List (Nat × Nat)) → Except Crash (Option Nat)
  | [] => .ok none
  | block :: rest =>
    let counted := seen + (block.map Prod.snd).sum
    if maxWord < counted then .error .sumTooLarge
    else if target ≤ counted then .ok (binWithin target seen block)
    else binAmong target counted rest

/-- Whether two neighbouring bins are in one block: each block has eight bins,
and bins that fill no block stand alone. -/
def inOneBlock (h : Histogram) (i j : Nat) : Bool := i / 8 == j / 8 && j / 8 < h.bins.count / 8

/-- The bins that hold values, from below, in blocks. -/
def blocks (h : Histogram) : List (List (Nat × Nat)) :=
  h.counts.toList.splitBy fun a b => h.inOneBlock a.1 b.1

/-- The first bin at which at least `target` values were counted from below. -/
def binAtCount (h : Histogram) (target : Nat) : Except Crash (Option Nat) :=
  binAmong target 0 h.blocks

/-- The value that a share of the recorded values does not exceed, as far as
bins tell: the upper end of the bin at which that share was counted, or the
lower end of the first bin that holds values if the share is zero.  A share of
more than all is one of all. -/
def quantile (h : Histogram) (share : Float) : Except Crash Nat := do
  let share := if 1.0 < share then 1.0 else share
  let target := (share * (UInt64.ofNat h.total).toFloat).ceil.toUInt64
  match ← h.binAtCount (max 1 target.toNat) with
  | none => return 0
  | some index =>
    let value := h.bins.valueOf index
    return if share == 0.0 then h.bins.lowest value else h.bins.highest value

end Histogram

end TableProbe
