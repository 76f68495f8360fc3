import TableProbe.Proofs.Histogram.Bins

/-!
# Recorded latencies

A histogram of latencies never holds a value beyond its own bins, so histograms
of latencies can always be merged (`Histogram.exists_mergeAll`), and the merged
one counts as many values as all of them together.
-/

namespace TableProbe

namespace Histogram

/-! ## Histograms of latencies -/

/-- The histogram counts latencies, each of which has a bin. -/
structure Recorded (h : Histogram) : Prop where
  bins : h.bins = latencyBins
  peak : h.peak < latencyBins.span
  total : h.total ≤ maxWord

/-- The latencies recorded one after another. -/
def ofLatencies (values : List Nat) : Histogram := values.foldl record emptyLatency

variable {h other : Histogram}

theorem saturate_le (n : Nat) : saturate n ≤ maxWord := Nat.min_le_right _ _

/-- It makes no difference whether a part of a sum stops growing first, so
counts can be added in any grouping. -/
theorem saturate_add (n m : Nat) : saturate (saturate n + m) = saturate (n + m) := by
  unfold saturate
  omega

theorem recorded_emptyLatency : emptyLatency.Recorded := ⟨rfl, Nat.two_pow_pos _, Nat.zero_le _⟩

theorem addTo_bins (h : Histogram) (index n : Nat) : (h.addTo index n).bins = h.bins := by
  unfold addTo
  split
  · rfl
  · rfl

theorem addTo_peak (h : Histogram) (index n : Nat) : (h.addTo index n).peak = h.peak := by
  unfold addTo
  split
  · rfl
  · rfl

/-- Every latency has a bin, if need be the last one. -/
theorem clamp_lt_span (bins : h.bins = latencyBins) (value : Nat) :
    h.clamp value < latencyBins.span := by
  apply latencyBins.lt_span_of_index_lt (by decide) (by decide)
  unfold clamp
  rw [bins]
  split
  · assumption
  · decide

/-- A raised peak is one of the two. -/
theorem raise_peak (bins : h.bins = latencyBins) (value : Nat) :
    (h.raise value).peak = h.peak ∨ (h.raise value).peak = value := by
  unfold raise
  split
  · rw [bins]
    exact .inr (Nat.or_zero value)
  · exact .inl rfl

theorem raise_bins (h : Histogram) (value : Nat) : (h.raise value).bins = h.bins := by
  unfold raise
  split
  · rfl
  · rfl

theorem raise_total (h : Histogram) (value : Nat) : (h.raise value).total = h.total := by
  unfold raise
  split
  · rfl
  · rfl

theorem Recorded.record (recorded : h.Recorded) (value : Nat) : (h.record value).Recorded where
  bins := (raise_bins ..).trans ((addTo_bins ..).trans recorded.bins)
  peak := by
    have bins : (h.addTo (h.bins.index (h.clamp value)) 1).bins = latencyBins :=
      (addTo_bins ..).trans recorded.bins
    have raised := raise_peak bins (h.clamp value)
    rw [addTo_peak] at raised
    rcases raised with same | new
    · exact same ▸ recorded.peak
    · exact new ▸ clamp_lt_span recorded.bins value
  total := saturate_le _

theorem total_record (h : Histogram) (value : Nat) :
    (h.record value).total = saturate (h.total + 1) := rfl

/-- However many latencies are recorded, the bins stay those of latencies, and
the total counts every one of them until it stops growing. -/
theorem foldl_record (recorded : h.Recorded) (values : List Nat) :
    (values.foldl Histogram.record h).Recorded ∧
      (values.foldl Histogram.record h).total = saturate (h.total + values.length) := by
  induction values generalizing h with
  | nil => exact ⟨recorded, (Nat.min_eq_left recorded.total).symm⟩
  | cons value values ih =>
    obtain ⟨recorded', total⟩ := ih (recorded.record value)
    refine ⟨recorded', total.trans ?_⟩
    rw [total_record, saturate_add, List.length_cons]
    congr 1
    omega

theorem recorded_ofLatencies (values : List Nat) : (ofLatencies values).Recorded :=
  (foldl_record recorded_emptyLatency values).1

theorem ofLatencies_concat (values : List Nat) (value : Nat) :
    ofLatencies (values ++ [value]) = (ofLatencies values).record value :=
  List.foldl_append ..

/-- As many values are counted as were recorded. -/
theorem total_ofLatencies (values : List Nat) :
    (ofLatencies values).total = saturate values.length := by
  have none_yet : emptyLatency.total = 0 := rfl
  rw [ofLatencies, (foldl_record recorded_emptyLatency values).2, none_yet, Nat.zero_add]

/-! ## Merging -/

/-- The largest of some latencies has a bin.  This is all that a merge asks of
the histogram that is merged in. -/
theorem Recorded.largest_lt (recorded : other.Recorded) : other.largest < latencyBins.span := by
  unfold largest
  split
  · exact Nat.two_pow_pos _
  · rw [recorded.bins]
    exact latencyBins.highest_lt_span (by decide) (by decide) recorded.peak

theorem foldl_addTo (cells : Std.ExtTreeMap Nat Nat) (h : Histogram) :
    (cells.foldl addTo h).bins = h.bins ∧ (cells.foldl addTo h).peak = h.peak := by
  rw [Std.ExtTreeMap.foldl_eq_foldl_toList]
  generalize cells.toList = list
  induction list generalizing h with
  | nil => exact ⟨rfl, rfl⟩
  | cons cell list ih =>
    obtain ⟨bins, peak⟩ := ih (h.addTo cell.1 cell.2)
    exact ⟨bins.trans (addTo_bins ..), peak.trans (addTo_peak ..)⟩

/-- The sum of two histograms of latencies is one, and its total is the sum of
theirs, even if one of them is empty. -/
theorem Recorded.addCounts (recorded : h.Recorded) (recorded' : other.Recorded) :
    (h.addCounts other).Recorded ∧
      (h.addCounts other).total = saturate (h.total + other.total) := by
  unfold Histogram.addCounts
  split
  · rename_i zero
    rw [zero, Nat.zero_add]
    exact ⟨⟨recorded.bins, recorded'.peak, recorded'.total⟩,
      (Nat.min_eq_left recorded'.total).symm⟩
  · obtain ⟨bins, peak⟩ := foldl_addTo other.counts h
    have summed :
        Recorded { other.counts.foldl addTo h with total := saturate (h.total + other.total) } :=
      ⟨bins.trans recorded.bins, peak ▸ recorded.peak, saturate_le _⟩
    dsimp only
    split
    · refine ⟨⟨(raise_bins ..).trans summed.bins, ?_, ?_⟩, ?_⟩
      · rcases raise_peak summed.bins other.largest with same | new
        · rw [same]
          exact summed.peak
        · rw [new]
          exact recorded'.largest_lt
      · rw [raise_total]
        exact summed.total
      · rw [raise_total]
    · exact ⟨summed, rfl⟩

/-- The last bin of a histogram of latencies has room for every latency, so a
merge adds counts and is never refused. -/
theorem Recorded.merge_eq (recorded : h.Recorded) (recorded' : other.Recorded) :
    h.merge other = .ok (if other.total = 0 then h else h.addCounts other) := by
  have reach : latencyBins.reach = latencyBins.span - 1 := by decide
  have largest := recorded'.largest_lt
  unfold Histogram.merge
  by_cases zero : other.total = 0
  · rw [if_pos zero, if_pos zero]
  · rw [if_neg zero, if_neg zero, recorded.bins, recorded'.bins, if_neg (by omega),
      if_pos ⟨rfl, rfl, rfl⟩]

/-- Two histograms of latencies can be merged. -/
theorem Recorded.merge (recorded : h.Recorded) (recorded' : other.Recorded) :
    ∃ m, h.merge other = .ok m ∧ m.Recorded ∧ m.total = saturate (h.total + other.total) := by
  refine ⟨_, recorded.merge_eq recorded', ?_⟩
  split
  · rename_i zero
    rw [zero, Nat.add_zero]
    exact ⟨recorded, (Nat.min_eq_left recorded.total).symm⟩
  · exact recorded.addCounts recorded'

/-- Histograms of latencies can be merged, however many there are, and their
totals add up.  By induction on those that are still to come: the result of a
merge is a histogram of latencies again. -/
theorem foldlM_merge (recorded : h.Recorded) {rest : List Histogram}
    (all : ∀ other ∈ rest, other.Recorded) :
    ∃ m, rest.foldlM Histogram.merge h = .ok m ∧ m.Recorded ∧
      m.total = saturate (h.total + (rest.map total).sum) := by
  induction rest generalizing h with
  | nil => exact ⟨h, rfl, recorded, (Nat.min_eq_left recorded.total).symm⟩
  | cons other rest ih =>
    obtain ⟨h', merged, recorded', total⟩ := recorded.merge (all other List.mem_cons_self)
    obtain ⟨m, done, recorded'', total'⟩ :=
      ih recorded' fun o ho => all o (List.mem_cons_of_mem _ ho)
    refine ⟨m, ?_, recorded'', ?_⟩
    · rw [List.foldlM_cons, merged]
      exact done
    · rw [total', total, saturate_add, List.map_cons, List.sum_cons, Nat.add_assoc]

/-- The number of values that some histograms count together, if there are
histograms at all. -/
def sumOf (histograms : List (Option Histogram)) : Option Nat :=
  match histograms.filterMap id with
  | [] => none
  | h :: rest => some (saturate ((h :: rest).map total).sum)

/-- Histograms of latencies can be merged, and the result counts as many values
as all of them. -/
theorem exists_mergeAll {histograms : List (Option Histogram)}
    (all : ∀ h, some h ∈ histograms → h.Recorded) :
    ∃ m, mergeAll histograms = .ok m ∧ m.map total = sumOf histograms := by
  have all' : ∀ h ∈ histograms.filterMap id, h.Recorded := by
    intro h mem
    obtain ⟨o, ho, same⟩ := List.mem_filterMap.1 mem
    exact all h (same ▸ ho)
  unfold mergeAll sumOf
  generalize histograms.filterMap id = list at all' ⊢
  cases list with
  | nil => exact ⟨none, rfl, rfl⟩
  | cons h rest =>
    obtain ⟨m, merged, -, total⟩ := foldlM_merge (all' h List.mem_cons_self)
      fun o ho => all' o (List.mem_cons_of_mem _ ho)
    refine ⟨some m, ?_, congrArg some total⟩
    dsimp only
    rw [merged]
    rfl

end Histogram

end TableProbe
