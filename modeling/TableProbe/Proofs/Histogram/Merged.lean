import Mathlib.Data.List.Forall2
import TableProbe.Proofs.Histogram.Recorded

/-!
# Merged latencies

Merging histograms of latencies loses nothing.  A histogram says, of the values
recorded in it, how many fell into each bin, how many there were, and where the
bin of the largest one ends; `Histogram.Tallies` is that relation, and merging
two histograms appends the values that they tally (`Histogram.Tallies.merge`).
None of the three depends on the order of the values, so neither does the
merged histogram on the order of the histograms, or on how they are grouped
(`Histogram.mergeAll_loses_nothing`).
-/

namespace TableProbe

theorem regular_latencyBins : Histogram.latencyBins.Regular := ⟨by decide, by decide, by decide⟩

namespace Histogram

variable {h h' other : Histogram} {values others : List Nat}

/-! ## What is said of some values -/

/-- The bin that a latency is counted in. -/
def binOf (value : Nat) : Nat := latencyBins.index (emptyLatency.clamp value)

/-- Where the bin of a latency ends. -/
def endOf (value : Nat) : Nat := latencyBins.highest (emptyLatency.clamp value)

/-- How many latencies fall into a bin. -/
def countIn (values : List Nat) (index : Nat) : Nat :=
  values.countP fun value => binOf value = index

/-- Where the bin of the largest latency ends. -/
def lastEnd (values : List Nat) : Nat := values.foldr (fun value last => max (endOf value) last) 0

/-- The entry for a count; there is none for a count of zero. -/
def entry (n : Nat) : Option Nat := if n = 0 then none else some (saturate n)

theorem countIn_append (values others : List Nat) (index : Nat) :
    countIn (values ++ others) index = countIn values index + countIn others index :=
  List.countP_append

theorem lastEnd_append (values others : List Nat) :
    lastEnd (values ++ others) = max (lastEnd values) (lastEnd others) := by
  induction values with
  | nil => exact (Nat.zero_max _).symm
  | cons value values ih =>
    have first (rest : List Nat) : lastEnd (value :: rest) = max (endOf value) (lastEnd rest) :=
      rfl
    rw [List.cons_append, first, first, ih, Nat.max_assoc]

theorem lastEnd_perm (same : values.Perm others) : lastEnd values = lastEnd others := by
  exact same.foldr_eq' (fun a _ b _ last => Nat.max_left_comm (endOf b) (endOf a) last) 0

/-- The histogram counts these latencies, in some order. -/
structure Tallies (h : Histogram) (values : List Nat) : Prop extends h.Recorded where
  entries : ∀ index, h.counts[index]? = entry (countIn values index)
  count : h.total = saturate values.length
  last : h.largest = lastEnd values

theorem tallies_emptyLatency : emptyLatency.Tallies [] where
  toRecorded := recorded_emptyLatency
  entries _ := Std.ExtTreeMap.getElem?_empty
  count := rfl
  last := rfl

/-- The count of a bin is read off the latencies, and their order makes no
difference to it. -/
theorem Tallies.countOf_eq (tallies : h.Tallies values) (index : Nat) :
    h.countOf index = saturate (countIn values index) := by
  rw [countOf, tallies.entries, entry]
  split
  · rename_i zero
    rw [zero]
    rfl
  · rfl

/-! ## Recording a value -/

theorem clamp_eq (bins : h.bins = latencyBins) (value : Nat) :
    h.clamp value = emptyLatency.clamp value := by
  unfold clamp
  rw [bins]
  rfl

/-- The largest latency is where the bin of the peak ends.  A histogram without
values is no exception: its peak is zero, and the bin of zero ends there. -/
theorem Recorded.largest_eq (recorded : h.Recorded) : h.largest = latencyBins.highest h.peak := by
  unfold largest
  split
  · rename_i zero
    rw [zero]
    decide
  · rw [recorded.bins]

theorem raise_peak_eq (bins : h.bins = latencyBins) (value : Nat) :
    (h.raise value).peak = max h.peak value := by
  unfold raise
  split
  · rw [bins]
    exact (Nat.or_zero value).trans (by omega)
  · omega

theorem addTo_of_eq_zero {n : Nat} (zero : n = 0) (h : Histogram) (index : Nat) :
    h.addTo index n = h := if_pos zero

theorem counts_addTo (h : Histogram) {n : Nat} (some_values : n ≠ 0) (index other : Nat) :
    (h.addTo index n).counts[other]? =
      if index = other then some (saturate (h.countOf index + n)) else h.counts[other]? := by
  rw [addTo, if_neg some_values]
  dsimp only
  rw [Std.ExtTreeMap.getElem?_insert]
  simp only [Nat.compare_eq_eq]

/-- Adding to a count that has stopped growing gives what the count of the
whole sum is.  So counts can stop growing at any time, before they are added up
or after it. -/
theorem entry_add (m : Nat) {n : Nat} (some_values : n ≠ 0) :
    entry (m + n) = some (saturate (saturate m + n)) := by
  rw [entry, if_neg (by omega), saturate_add]

theorem raise_counts (h : Histogram) (value : Nat) : (h.raise value).counts = h.counts := by
  unfold raise
  split
  · rfl
  · rfl

/-- A latency is counted in a bin that depends on the latency alone, not on
what was recorded before. -/
theorem record_eq (bins : h.bins = latencyBins) (value : Nat) :
    h.record value =
      { (h.addTo (binOf value) 1).raise (emptyLatency.clamp value)
        with total := saturate (h.total + 1) } := by
  rw [Histogram.record, recordMany, clamp_eq bins, bins, binOf]

/-- One more value is recorded. -/
theorem Tallies.record (tallies : h.Tallies values) (value : Nat) :
    (h.record value).Tallies (values ++ [value]) where
  toRecorded := tallies.toRecorded.record value
  entries index := by
    have counts : (h.record value).counts = (h.addTo (binOf value) 1).counts := by
      rw [record_eq tallies.bins]
      dsimp only
      rw [raise_counts]
    have one : countIn [value] index = if binOf value = index then 1 else 0 := by
      simp only [countIn, List.countP_singleton, decide_eq_true_eq]
    rw [counts, counts_addTo h Nat.one_ne_zero, countIn_append, one]
    split
    · rename_i here
      rw [here, tallies.countOf_eq, entry_add _ Nat.one_ne_zero]
    · exact tallies.entries index
  count := by
    rw [total_record, tallies.count, saturate_add, List.length_append, List.length_singleton]
  last := by
    have recorded := tallies.toRecorded.record value
    have peak : (h.record value).peak = max h.peak (emptyLatency.clamp value) := by
      rw [record_eq tallies.bins]
      dsimp only
      rw [raise_peak_eq ((addTo_bins ..).trans tallies.bins), addTo_peak]
    rw [recorded.largest_eq, peak,
      regular_latencyBins.highest_max tallies.peak (clamp_lt_span rfl value),
      ← tallies.toRecorded.largest_eq, tallies.last, lastEnd_append]
    exact congrArg (max _) (Nat.max_zero _).symm

/-- Recording some more latencies tallies them behind those that were tallied
before: the histogram and the list grow together. -/
theorem tallies_foldl_record (tallies : h.Tallies values) (others : List Nat) :
    (others.foldl Histogram.record h).Tallies (values ++ others) := by
  induction others generalizing h values with
  | nil => rwa [List.append_nil]
  | cons value others ih =>
    rw [List.append_cons]
    exact ih (tallies.record value)

theorem tallies_ofLatencies (values : List Nat) : (ofLatencies values).Tallies values :=
  tallies_foldl_record tallies_emptyLatency values

/-! ## Adding bin by bin -/

/-- Adds some counts, each to its bin. -/
def addAll (h : Histogram) (cells : List (Nat × Nat)) : Histogram :=
  cells.foldl (fun h cell => h.addTo cell.1 cell.2) h

theorem counts_addAll_of_apart {cells : List (Nat × Nat)} {index : Nat}
    (apart : ∀ cell ∈ cells, cell.1 ≠ index) (h : Histogram) :
    (h.addAll cells).counts[index]? = h.counts[index]? := by
  induction cells generalizing h with
  | nil => rfl
  | cons cell cells ih =>
    refine (ih (fun c mem => apart c (List.mem_cons_of_mem _ mem)) _).trans ?_
    dsimp only
    by_cases zero : cell.2 = 0
    · rw [addTo_of_eq_zero zero]
    · rw [counts_addTo h zero, if_neg (apart cell List.mem_cons_self)]

/-- If every bin is listed once, then its count grows by what it is listed
with: what is added before and after it concerns other bins. -/
theorem counts_addAll_of_mem {cells : List (Nat × Nat)} {index n : Nat} (some_values : n ≠ 0)
    (distinct : cells.Pairwise fun a b => a.1 ≠ b.1) (mem : (index, n) ∈ cells) (h : Histogram) :
    (h.addAll cells).counts[index]? = some (saturate (h.countOf index + n)) := by
  induction cells generalizing h with
  | nil => cases mem
  | cons cell cells ih =>
    obtain ⟨first, rest⟩ := List.pairwise_cons.1 distinct
    rcases List.mem_cons.1 mem with rfl | later
    · refine (counts_addAll_of_apart (fun c mem => (first c mem).symm) _).trans ?_
      rw [counts_addTo h some_values, if_pos rfl]
    · refine (ih rest later _).trans ?_
      have other : cell.1 ≠ index := first _ later
      rw [countOf, countOf]
      dsimp only
      by_cases zero : cell.2 = 0
      · rw [addTo_of_eq_zero zero]
      · rw [counts_addTo h zero, if_neg other]

/-- Bins that hold values of either histogram hold those of both. -/
theorem Tallies.entries_add (tallies : h.Tallies values) (tallies' : other.Tallies others)
    (index : Nat) :
    (other.counts.foldl addTo h).counts[index]? = entry (countIn (values ++ others) index) := by
  have listed (n : Nat) : (index, n) ∈ other.counts.toList ↔
      entry (countIn others index) = some n := by
    rw [Std.ExtTreeMap.mem_toList_iff_getElem?_eq_some, tallies'.entries]
  have folded : other.counts.foldl addTo h = h.addAll other.counts.toList :=
    Std.ExtTreeMap.foldl_eq_foldl_toList
  rw [folded, countIn_append]
  -- a bin is listed once if it holds values of the other histogram, and not at all otherwise
  by_cases zero : countIn others index = 0
  · rw [counts_addAll_of_apart, tallies.entries, zero, Nat.add_zero]
    rintro ⟨i, n⟩ mem rfl
    rw [listed, zero] at mem
    cases mem
  · have held : entry (countIn others index) = some (saturate (countIn others index)) :=
      if_neg zero
    have some_values : saturate (countIn others index) ≠ 0 := by
      have : 0 < maxWord := by decide
      unfold saturate
      omega
    have distinct : other.counts.toList.Pairwise fun a b => a.1 ≠ b.1 :=
      Std.ExtTreeMap.distinct_keys_toList.imp fun differ same => differ (Nat.compare_eq_eq.2 same)
    rw [counts_addAll_of_mem some_values distinct ((listed _).2 held), tallies.countOf_eq, entry,
      if_neg (by omega), saturate_add, Nat.add_comm, saturate_add, Nat.add_comm]

/-- Counts are added bin by bin to a histogram that holds values; raising its
peak afterwards changes none of them. -/
theorem counts_addCounts (some_values : h.total ≠ 0) (other : Histogram) :
    (h.addCounts other).counts = (other.counts.foldl addTo h).counts := by
  rw [addCounts, if_neg some_values]
  dsimp only
  split
  · exact raise_counts ..
  · rfl

/-- The larger one of two largest values is the largest of all. -/
theorem Recorded.largest_addCounts (recorded : h.Recorded) (recorded' : other.Recorded)
    (some_values : h.total ≠ 0) : (h.addCounts other).largest = max h.largest other.largest := by
  obtain ⟨bins, peak⟩ := foldl_addTo other.counts h
  have ends : latencyBins.highest other.largest = other.largest := by
    rw [recorded'.largest_eq, regular_latencyBins.highest_highest recorded'.peak]
  rw [(recorded.addCounts recorded').1.largest_eq, Histogram.addCounts, if_neg some_values]
  dsimp only
  split
  · -- the other histogram brings in the end of its last bin, which is in that bin
    rw [raise_peak_eq]
    · dsimp only
      rw [peak, regular_latencyBins.highest_max recorded.peak recorded'.largest_lt, ends,
        recorded.largest_eq]
    · exact bins.trans recorded.bins
  · rename_i less
    dsimp only
    rw [peak, ← recorded.largest_eq, Nat.max_eq_left (Nat.le_of_not_lt less)]

/-- A histogram with a total of zero tallies nothing: a total stops growing at
the largest word, but never returns to zero. -/
theorem Tallies.nil_of_total (tallies : h.Tallies values) (zero : h.total = 0) : values = [] := by
  have word : 0 < maxWord := by decide
  have count := tallies.count
  unfold saturate at count
  exact List.length_eq_zero_iff.1 (by omega)

/-- Adding the counts of a histogram does what recording all its latencies
would do.  An empty histogram is replaced by the other one; otherwise counts
are added bin by bin, and the peak is raised to the end of the last bin. -/
theorem Tallies.addCounts (tallies : h.Tallies values) (tallies' : other.Tallies others) :
    (h.addCounts other).Tallies (values ++ others) := by
  -- an empty histogram is replaced by the other one, so the cases have nothing in common
  by_cases zero : h.total = 0
  · have same : h.addCounts other = other := by
      rw [Histogram.addCounts, if_pos zero, tallies.bins, ← tallies'.bins]
    rwa [same, tallies.nil_of_total zero]
  · obtain ⟨recorded, total⟩ := tallies.toRecorded.addCounts tallies'.toRecorded
    refine ⟨recorded, fun index => ?entries, ?count, ?last⟩
    case entries =>
      rw [counts_addCounts zero]
      exact tallies.entries_add tallies' index
    case count =>
      rw [total, tallies.count, tallies'.count, saturate_add, Nat.add_comm, saturate_add,
        Nat.add_comm, List.length_append]
    case last =>
      rw [tallies.toRecorded.largest_addCounts tallies'.toRecorded zero, tallies.last,
        tallies'.last, lastEnd_append]

/-! ## Merging -/

/-- A merged histogram counts the values of both.  Merging does not fail, and
takes the way of equal bins: the last bin has room for all latencies. -/
theorem Tallies.merge (tallies : h.Tallies values) (tallies' : other.Tallies others) :
    ∃ m, h.merge other = .ok m ∧ m.Tallies (values ++ others) := by
  refine ⟨_, tallies.toRecorded.merge_eq tallies'.toRecorded, ?_⟩
  split
  · rename_i zero
    rwa [tallies'.nil_of_total zero, List.append_nil]
  · exact tallies.addCounts tallies'

/-- Histograms of latencies can be merged, however many there are, and all
their latencies are tallied in the end.  The induction is on the histograms
that are still to come; each merge leaves the bins of latencies, which is what
the next one asks for. -/
theorem tallies_foldlM_merge (tallies : h.Tallies values) {rest : List Histogram}
    {lists : List (List Nat)} (all : List.Forall₂ Tallies rest lists) :
    ∃ m, rest.foldlM Histogram.merge h = .ok m ∧ m.Tallies (values ++ lists.flatten) := by
  induction all generalizing h values with
  | nil =>
    rw [List.flatten_nil, List.append_nil]
    exact ⟨h, rfl, tallies⟩
  | @cons other others rest lists tallies' all ih =>
    obtain ⟨h', merged, tallies⟩ := tallies.merge tallies'
    obtain ⟨m, done, tallies⟩ := ih tallies
    refine ⟨m, ?_, ?_⟩
    · rw [List.foldlM_cons, merged]
      exact done
    · rwa [List.flatten_cons, ← List.append_assoc]

/-- The latencies of some workers together, if any of the workers recorded
latencies. -/
def gathered (entries : List (Option (List Nat))) : Option (List Nat) :=
  if ∀ entry ∈ entries, entry = none then none else some (entries.filterMap id).flatten

variable {entries entries' : List (Option (List Nat))}

/-- Nothing is gathered if no worker recorded.  A worker that recorded an empty
list of latencies counts as one that did. -/
theorem gathered_eq_none : gathered entries = none ↔ ∀ entry ∈ entries, entry = none := by
  unfold gathered
  split
  · exact iff_of_true rfl ‹_›
  · exact iff_of_false (Option.some_ne_none _) ‹_›

theorem eq_of_gathered_eq_some (h : gathered entries = some values) :
    values = (entries.filterMap id).flatten := by
  unfold gathered at h
  split at h
  · cases h
  · exact (Option.some.inj h).symm

/-- With the workers in another order the same latencies are gathered, in
another order. -/
theorem gathered_perm (same : entries.Perm entries') :
    Option.Rel List.Perm (gathered entries) (gathered entries') := by
  have missing : (∀ entry ∈ entries, entry = none) ↔ ∀ entry ∈ entries', entry = none := by
    simp only [same.mem_iff]
  unfold gathered
  split
  · rw [if_pos (missing.1 ‹_›)]
    exact .none
  · rw [if_neg (mt missing.2 ‹_›)]
    exact .some (same.filterMap id).flatten

/-- What groups of workers recorded is what all of them recorded. -/
theorem gathered_gathered (groups : List (List (Option (List Nat)))) :
    gathered (groups.map gathered) = gathered groups.flatten := by
  have missing : (∀ entry ∈ groups.map gathered, entry = none) ↔
      ∀ entry ∈ groups.flatten, entry = none := by
    rw [List.forall_mem_map]
    simp only [gathered_eq_none, List.forall_mem_flatten]
  have joined : ((groups.map gathered).filterMap id).flatten =
      (groups.flatten.filterMap id).flatten := by
    clear missing
    induction groups with
    | nil => rfl
    | cons group groups ih =>
      rw [List.map_cons, List.flatten_cons, List.filterMap_append, List.flatten_append, ← ih]
      cases some_values : gathered group with
      | none =>
        have nothing : group.filterMap id = [] :=
          List.filterMap_eq_nil_iff.2 (gathered_eq_none.1 some_values)
        rw [nothing, List.filterMap_cons_none rfl]
        rfl
      | some values =>
        rw [List.filterMap_cons_some (rfl : id (some values) = some values), List.flatten_cons,
          eq_of_gathered_eq_some some_values]
  rw [gathered, gathered, joined]
  simp only [missing]

theorem tallies_of_gathered (tallies : Option.Rel Tallies (some h) (gathered entries)) :
    h.Tallies (entries.filterMap id).flatten := by
  cases some_values : gathered entries with
  | none =>
    rw [some_values] at tallies
    cases tallies
  | some values =>
    rw [some_values, eq_of_gathered_eq_some some_values] at tallies
    cases tallies with
    | some tallies => exact tallies

/-- Histograms of latencies merge into one that counts what they count
together. -/
theorem exists_mergeAll_tallies {histograms : List (Option Histogram)}
    (all : List.Forall₂ (Option.Rel Tallies) histograms entries) :
    ∃ m, mergeAll histograms = .ok m ∧ Option.Rel Tallies m (gathered entries) := by
  have present : List.Forall₂ Tallies (histograms.filterMap id) (entries.filterMap id) :=
    List.rel_filterMap (fun _ _ rel => rel) all
  have missing : entries.filterMap id = [] ↔ ∀ entry ∈ entries, entry = none :=
    List.filterMap_eq_nil_iff
  unfold mergeAll gathered
  simp only [← missing]
  generalize histograms.filterMap id = list, entries.filterMap id = lists at present
  cases present with
  | nil => exact ⟨none, rfl, .none⟩
  | @cons h values rest lists tallies all =>
    obtain ⟨m, merged, tallies⟩ := tallies_foldlM_merge tallies all
    refine ⟨some m, ?_, ?_⟩
    · dsimp only
      rw [merged]
      rfl
    · rw [if_neg (List.cons_ne_nil _ _)]
      exact .some tallies

/-- Merges what workers recorded that each recorded some latencies, or none at
all. -/
def mergeRecorded (entries : List (Option (List Nat))) : Except MergeError (Option Histogram) :=
  mergeAll (entries.map (·.map ofLatencies))

/-- Whatever the workers recorded, merging succeeds.  What comes of it tallies
what they gathered: all latencies together, or nothing if no worker recorded. -/
theorem exists_mergeRecorded (entries : List (Option (List Nat))) :
    ∃ m, mergeRecorded entries = .ok m ∧ Option.Rel Tallies m (gathered entries) := by
  apply exists_mergeAll_tallies
  rw [List.forall₂_map_left_iff, List.forall₂_same]
  rintro (- | values) -
  · exact .none
  · exact .some (tallies_ofLatencies values)

/-- Groups of workers can be merged one by one, and each group gathers its own
latencies. -/
theorem exists_mapM_mergeRecorded (groups : List (List (Option (List Nat)))) :
    ∃ merged, groups.mapM mergeRecorded = .ok merged ∧
      List.Forall₂ (Option.Rel Tallies) merged (groups.map gathered) := by
  induction groups with
  | nil => exact ⟨[], rfl, .nil⟩
  | cons group groups ih =>
    obtain ⟨m, done, tallies⟩ := exists_mergeRecorded group
    obtain ⟨merged, all_done, all⟩ := ih
    refine ⟨m :: merged, ?_, .cons tallies all⟩
    rw [List.mapM_cons, done, all_done]
    rfl

/-! ## What can be told of a histogram -/

/-- Nothing that is read off a histogram tells the two apart: the counts of
their bins, how many values they hold, the largest value, and the value that
any share of the values does not exceed. -/
structure Alike (h h' : Histogram) : Prop where
  counts : ∀ index, h.countOf index = h'.countOf index
  total : h.total = h'.total
  largest : h.largest = h'.largest
  quantile : ∀ share, h.quantile share = h'.quantile share

/-- Which bins hold how many values is all that counting from below looks at;
how the counts are stored makes no difference. -/
theorem binAtCount_congr (bins : h.bins = h'.bins) (counts : h.counts = h'.counts)
    (target : Nat) : h.binAtCount target = h'.binAtCount target := by
  have blocks : h.blocks = h'.blocks := by
    unfold Histogram.blocks inOneBlock
    rw [bins, counts]
  rw [binAtCount, binAtCount, blocks]

/-- Histograms of the same latencies in any order cannot be told apart: their
counts are the same, bin by bin, and all else is read off the counts, the total
and the peak. -/
theorem Tallies.alike (tallies : h.Tallies values) (tallies' : h'.Tallies others)
    (same : values.Perm others) : h.Alike h' := by
  have bins : h.bins = h'.bins := tallies.bins.trans tallies'.bins.symm
  have held (index : Nat) : countIn values index = countIn others index := same.countP_eq _
  have counts : h.counts = h'.counts := by
    apply Std.ExtTreeMap.ext_getElem?
    intro index
    rw [tallies.entries, tallies'.entries, held]
  have total : h.total = h'.total := by rw [tallies.count, tallies'.count, same.length_eq]
  refine ⟨fun index => ?_, total, ?_, fun share => ?_⟩
  · rw [countOf, countOf, counts]
  · rw [tallies.last, tallies'.last, lastEnd_perm same]
  · rw [quantile, quantile, total, binAtCount_congr bins counts, bins]

/-- Two histograms of the same latencies, tallied in different orders, cannot
be told apart. -/
theorem alike_of_perm {m m' : Option Histogram} {values others : Option (List Nat)}
    (tallies : Option.Rel Tallies m values) (tallies' : Option.Rel Tallies m' others)
    (same : Option.Rel List.Perm values others) : Option.Rel Alike m m' := by
  cases same with
  | none =>
    cases tallies
    cases tallies'
    exact .none
  | some same =>
    cases tallies with
    | some tallies =>
      cases tallies' with
      | some tallies' => exact .some (tallies.alike tallies' same)

/-- Merging the latencies of workers always succeeds.  The merged histogram is
there if any worker recorded latencies, and what can be told of it is what can
be told of one histogram in which all of them were recorded.  The order of the
workers makes no difference, nor do workers without latencies, nor does merging
the workers in groups first. -/
theorem mergeAll_loses_nothing :
    Bins.ofBounds ⟨1, 10000000, 3⟩ = .ok emptyLatency.bins ∧
    ∀ entries : List (Option (List Nat)), ∃ m, mergeRecorded entries = .ok m ∧
      (m = none ↔ ∀ entry ∈ entries, entry = none) ∧
      (∀ h, m = some h → h.Tallies (entries.filterMap id).flatten ∧
        h.Alike (ofLatencies (entries.filterMap id).flatten)) ∧
      (∀ others : List (Option (List Nat)), others.Perm entries →
        ∃ m', mergeRecorded others = .ok m' ∧ Option.Rel Alike m' m) ∧
      (∀ others : List (Option (List Nat)), others.filterMap id = entries.filterMap id →
        mergeRecorded others = .ok m) ∧
      (∀ groups : List (List (Option (List Nat))), groups.flatten.Perm entries →
        ∃ merged m', groups.mapM mergeRecorded = .ok merged ∧ mergeAll merged = .ok m' ∧
          Option.Rel Alike m' m) := by
  refine ⟨ofBounds_latencyBounds, fun entries => ?_⟩
  obtain ⟨m, done, tallies⟩ := exists_mergeRecorded entries
  refine ⟨m, done, ?missing, ?recorded, ?order, ?absent, ?groups⟩
  case missing =>
    rw [← gathered_eq_none]
    generalize gathered entries = recorded at tallies ⊢
    cases tallies with
    | none => exact iff_of_true rfl rfl
    | some => exact iff_of_false (Option.some_ne_none _) (Option.some_ne_none _)
  case recorded =>
    rintro h rfl
    have tallies := tallies_of_gathered tallies
    exact ⟨tallies, tallies.alike (tallies_ofLatencies _) (.refl _)⟩
  case order =>
    intro others same
    obtain ⟨m', done', tallies'⟩ := exists_mergeRecorded others
    exact ⟨m', done', alike_of_perm tallies' tallies (gathered_perm same)⟩
  case absent =>
    intro others same
    have present (entries : List (Option (List Nat))) :
        (entries.map (·.map ofLatencies)).filterMap id =
            (entries.filterMap id).map ofLatencies := by
      rw [List.filterMap_map, List.map_filterMap]
      rfl
    rw [← done, mergeRecorded, mergeRecorded, mergeAll, mergeAll, present, present, same]
  case groups =>
    intro groups same
    obtain ⟨merged, all_done, all⟩ := exists_mapM_mergeRecorded groups
    obtain ⟨m', done', tallies'⟩ := exists_mergeAll_tallies all
    rw [gathered_gathered] at tallies'
    exact ⟨merged, m', all_done, done', alike_of_perm tallies' tallies (gathered_perm same)⟩

end Histogram

end TableProbe
