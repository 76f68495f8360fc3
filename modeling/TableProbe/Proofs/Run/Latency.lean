import TableProbe.Proofs.Run.Assigned
import TableProbe.Proofs.Run.Workers
import TableProbe.Proofs.Worker.Latency

/-!
# Recording latencies only counts

Whether latencies are recorded changes nothing but the record: a worker that
records does and sees what it would do and see without, even if every call
takes another time.  The record of a run that succeeds counts each of its
operations once.
-/

namespace TableProbe

open Histogram (ofLatencies)

/-- A host that answers as another one does, but takes other times and has
another clock. -/
def Host.retimed {σ : Type} (host : Host σ) (micros : Actor → Call → σ → UInt64)
    (clock : Nat → Nat) : Host σ where
  answer who call s :=
    (⟨(host.answer who call s).1.outcome, micros who call s⟩, (host.answer who call s).2)
  clock := clock

namespace Run

variable {opts : RunOptions} {keys : KeySpace} {schedule : Schedule} {config : Config}

/-! ## What the workers of a run record -/

/-- The record of a worker of the second phase: all its operations, if
latencies are recorded. -/
def RecordOf (latency : Bool) (a : Assignment) (samples : Option Histogram) : Prop :=
  ∃ values : List Nat, values.length = a.ops.toNat ∧
    samples = if latency then some (ofLatencies values) else none

/-- A worker that succeeds has recorded one latency for each of its operations,
or none at all if latencies are not recorded. -/
theorem recordOf_of_mixer {a : Assignment} {events : List Event} {samples : Option Histogram}
    (runs : (mixer opts keys schedule a).Runs events (.ok samples)) :
    RecordOf opts.latency a samples := by
  obtain ⟨window, mixing⟩ := exists_mixing runs
  cases mixing with
  | finished _ done =>
    obtain ⟨sampled, count⟩ := Worker.samples_steps schedule a.ops 0 a.ops.toNat done
    refine ⟨_, count () rfl, sampled.trans ?_⟩
    unfold Worker.ofThread
    cases opts.latency with
    | true => rfl
    | false => rfl

/-- If all workers of the second phase succeed, then each of them has the
record that it should have. -/
theorem records_of_worked {parts : List Assignment} {events : List Event}
    {list : List (Option Histogram)}
    (worked : Worked parts (mixer opts keys schedule) events (list.map Except.ok)) :
    List.Forall₂ (RecordOf opts.latency) parts list := by
  have records :
      List.Forall₂ (fun a r => ∀ samples, r = .ok samples → RecordOf opts.latency a samples) parts
      (list.map Except.ok) :=
    worked.forall₂ fun runs samples same => recordOf_of_mixer (same ▸ runs)
  rw [List.forall₂_map_right_iff] at records
  exact records.imp fun _ samples record => record samples rfl

/-- The histograms of workers that all succeeded. -/
theorem filterMap_of_records {latency : Bool} {parts : List Assignment}
    {list : List (Option Histogram)} (records : List.Forall₂ (RecordOf latency) parts list) :
    (∀ h, some h ∈ list → h.Recorded) ∧
      (list.filterMap id).map Histogram.total =
        if latency then parts.map fun a => a.ops.toNat else [] := by
  induction records with
  | nil => exact ⟨fun h mem => (by cases mem), by rw [List.map_nil, ite_self]; rfl⟩
  | @cons a samples parts list record _ ih =>
    rcases record with ⟨values, count, rfl⟩
    cases latency with
    | true =>
      have total : (ofLatencies values).total = a.ops.toNat := by
        rw [Histogram.total_ofLatencies, count]
        exact Nat.min_eq_left (Nat.le_pred_of_lt a.ops.toNat_lt)
      refine ⟨fun h mem => ?_, congrArg₂ List.cons total ih.2⟩
      rcases List.mem_cons.1 mem with same | mem
      · cases same
        exact Histogram.recorded_ofLatencies values
      · exact ih.1 h mem
    | false =>
      refine ⟨fun h mem => ?_, ih.2⟩
      rcases List.mem_cons.1 mem with same | mem
      · cases same
      · exact ih.1 h mem

/-- What workers that all succeeded have recorded can be merged, and counts all
their operations. -/
theorem exists_merged {latency : Bool} {parts : List Assignment} {list : List (Option Histogram)}
    (some_parts : parts ≠ []) (fits : (parts.map fun a => a.ops.toNat).sum < 2 ^ 64)
    (records : List.Forall₂ (RecordOf latency) parts list) :
    ∃ m, Histogram.mergeAll list = .ok m ∧ m.map Histogram.total =
      if latency then some (parts.map fun a => a.ops.toNat).sum else none := by
  obtain ⟨all, totals⟩ := filterMap_of_records records
  obtain ⟨m, merged, total⟩ := Histogram.exists_mergeAll all
  refine ⟨m, merged, total.trans ?_⟩
  unfold Histogram.sumOf
  generalize list.filterMap id = histograms at totals ⊢
  cases histograms with
  | nil =>
    cases latency with
    | true => exact absurd (List.map_eq_nil_iff.1 totals.symm) some_parts
    | false => rfl
  | cons h rest =>
    cases latency with
    | true =>
      dsimp only
      rw [totals]
      exact congrArg some (Nat.min_eq_left (Nat.le_pred_of_lt fits))
    | false => cases totals

/-- The latencies that are reported are those of all workers, merged. -/
theorem mergeAll_of_conclude {list : List (Option Histogram)} {t₁ t₂ t₃ t₄ : Nat}
    {report : Report} (concluded : conclude config list t₁ t₂ t₃ t₄ = .ok report) :
    Histogram.mergeAll list = .ok report.latency := by
  unfold conclude at concluded
  cases merged : Histogram.mergeAll list with
  | error e =>
    rw [merged] at concluded
    cases concluded
  | ok latency =>
    rw [merged] at concluded
    cases concluded
    rfl

/-- What a run that succeeded has put together. -/
theorem latency_of_ran {turns : Turns} {parts : List Assignment} {events : List Event}
    {x : Watched} {report : Report} (numbered : Numbered keys.threads parts)
    (ran : Ran config schedule opts turns keys parts events x)
    (reported : x.report = .ok report) :
    ∃ list, Histogram.mergeAll list = .ok report.latency ∧
      List.Forall₂ (RecordOf opts.latency) parts list := by
  cases ran with
  | unfilled _ _ => cases reported
  | @mixed _ _ _ _ mixes _ _ _ mixed _ _ _ mixRuns ended =>
    have worked := worked_of_mixes numbered mixRuns
    dsimp only at reported
    generalize joined : join (mixed.map Prod.fst) = results at ended
    cases ended with
    | failed e => cases reported
    | reported list t₄ =>
      rw [join_eq_ok_iff.1 joined] at worked
      exact ⟨list, mergeAll_of_conclude reported, records_of_worked worked⟩

/-- Recording latencies only counts.  A worker of any state, asked for
anything, does and sees the same with and without a record, as long as the
table answers the same, whatever times are measured; the record has one sample
for each call that was answered.  A run that succeeds has counted each of its
operations once if latencies are recorded, and has no record if not. -/
theorem recording_only_counts {σ : Type} (host : Host σ) (s : σ)
    (micros : Actor → Call → σ → UInt64) (clock : Nat → Nat) (w : Worker)
    (orders : List Worker.Order) (config : Config) (schedule : Schedule) (opts : RunOptions)
    (turns : Turns) (policy : AlarmPolicy) :
    (let plain := host.play .goOn (Worker.serve orders { w with samples := none }) s
     let recording := (host.retimed micros clock).play .goOn
       (Worker.serve orders { w with samples := some .emptyLatency }) s
     ∃ results, ∃ v : Worker, ∃ h, plain.result? = some (results, { v with samples := none }) ∧
       recording.result? = some (results, { v with samples := some h }) ∧
       plain.events.map Event.seen = recording.events.map Event.seen ∧
       plain.state = recording.state ∧
       h = ofLatencies (latencies recording.events) ∧
       h.total = Histogram.saturate (recording.events.countP Event.isAnswered)) ∧
      ∀ report,
        (host.play policy (run config schedule opts turns).run s).result? = some (.ok report) →
        report.latency.map Histogram.total =
          if opts.latency then some config.totalOps.toNat else none := by
  refine ⟨?_, fun report reported => ?_⟩
  · intro plain recording
    obtain ⟨events, ⟨results, v⟩, s₁, play, runs, answers⟩ :=
      host.exists_play (Worker.serve orders { w with samples := none }) s
    obtain ⟨events', ⟨results', v'⟩, s₂, play', runs', answers'⟩ :=
      (host.retimed micros clock).exists_play
        (Worker.serve orders { w with samples := some .emptyLatency }) s
    have peers : Worker.Peers Worker.SecondRecords w.keys w.thread { w with samples := none }
        { w with samples := some .emptyLatency } := ⟨rfl, rfl, _, rfl, rfl, rfl⟩
    have alike := Worker.alike_serve Worker.keptByRecord_secondRecords orders peers
    obtain ⟨seen, related, states⟩ := alike.runs runs runs' answers answers'
    rcases related with ⟨rfl, -, -, samples, rfl, none_recorded, -⟩
    have sampled := Worker.samples_of_serve runs'
    obtain rfl : samples = some (ofLatencies (latencies events')) := sampled
    simp only [plain, recording, play, play']
    refine ⟨results, v, _, ?_, rfl, seen, states, rfl, ?_⟩
    · rw [← none_recorded]
    · rw [Histogram.total_ofLatencies, length_latencies]
  · obtain ⟨events, x, s', runs, done, -⟩ := exists_watched reported
    unfold watch at runs
    cases hkeys : KeySpace.new? config.threads opts.keySize with
    | error e =>
      rw [hkeys] at runs
      cases runs
      cases done
    | ok keys =>
      rw [hkeys, assignments_eq_ok] at runs
      have threads := (threads_of_new?_eq_ok hkeys).1
      have numbered : Numbered keys.threads (partsOf config) :=
        threads ▸ numbered_of_assignments (assignments_eq_ok config)
      have some_threads : 0 < config.threads := threads ▸ keys.threads_pos
      have sum : ((partsOf config).map fun a => a.ops.toNat).sum = config.totalOps.toNat :=
        sum_parts config.totalOps some_threads fun _ => rfl
      have some_parts : partsOf config ≠ [] := by
        apply List.ne_nil_of_length_pos
        rw [numbered.length_eq]
        exact keys.threads_pos
      obtain ⟨list, merged, records⟩ := latency_of_ran numbered (ran_of_runs runs) done
      obtain ⟨m, merged', total⟩ :=
        exists_merged some_parts (sum ▸ config.totalOps.toNat_lt) records
      rw [merged] at merged'
      cases merged'
      rw [total, sum]

end Run

end TableProbe
