import TableProbe.Proofs.Run.Assigned
import TableProbe.Proofs.Run.Independent
import TableProbe.Proofs.Run.Workers
import TableProbe.Proofs.Worker.Solo

/-!
# No false alarms

A run against a table that does what it should, and that holds nothing to begin
with, finds nothing wrong, whatever the turns are.  Each worker is alone with
its share of the table (`Run.alone_of_runs`), so it succeeds by itself; and all
shares together are the table that is left (`Run.isSome_iff_of_windows`).
-/

namespace TableProbe

/-- Nothing is wrong: no alarm is raised, and no error noted. -/
def Event.Calm (e : Event) : Prop := e.alarm? = none ∧ ∀ n, e.note? = some n → n.level ≠ .error

theorem Event.calm_of_isCall {e : Event} (h : e.isCall = true) : e.Calm := by
  rcases e with ⟨who, deed, result⟩
  cases deed with
  | call c => exact ⟨rfl, fun n h => (by cases h)⟩
  | note n => cases h
  | alarm w => cases h
  | clock => cases h

theorem Event.isCall_of_isInsert {e : Event} (h : e.isInsert = true) : e.isCall = true := by
  rcases e with ⟨who, deed, result⟩
  cases deed with
  | call c => rfl
  | note n => cases h
  | alarm w => cases h
  | clock => cases h

namespace Run

/-! ## One worker -/

section

variable {opts : RunOptions} {keys : KeySpace} {schedule : Schedule} {a : Assignment}
  {events : List Event} {c c' : Contents}

/-- Alone with an empty share of a perfect table, a worker of the first phase
makes all its inserts, and each of them takes effect.  Afterwards its share
holds exactly the keys that were to be filled in. -/
theorem filler_solo {result : Except (Failure WorkError) Unit} (feasible : Feasible opts keys a)
    (nothing : c.Fills keys a.thread 0 0) (runs : (filler opts keys a).Runs events result)
    (answers : Contents.machine.Answers events c c') :
    result = .ok () ∧ c'.Fills keys a.thread 0 a.filled.toNat ∧ events.length = a.filled.toNat ∧
      ∀ e ∈ events, e.isInsert = true := by
  obtain ⟨⟨r, values'⟩, inner, rfl⟩ := Script.runs_map_iff.1 runs
  have zero : (0 : UInt64).toNat + a.filled.toNat = a.filled.toNat := Nat.zero_add _
  have none_yet : c.Fills keys a.thread 0 (0 : UInt64).toNat := nothing
  have bound : (0 : UInt64).toNat + a.filled.toNat < 2 ^ 64 := by
    rw [zero]
    exact a.filled.toNat_lt
  have filled :=
    Worker.fillFrom_solo feasible.sizes bound (fun i below => feasible.fit i (by omega)) none_yet
      (Worker.filling_of_runs inner) answers
  rwa [zero] at filled

/-- From there on the worker of the second phase succeeds: it makes one call
for each operation, raises no alarm, and its window tells which keys are left
in its share. -/
theorem watchedMixer_solo {x : Except (Failure WorkError) (Option Histogram) × Window}
    (feasible : Feasible opts keys a) (filled : c.Fills keys a.thread 0 a.filled.toNat)
    (runs : (watchedMixer opts keys schedule a).Runs events x)
    (answers : Contents.machine.Answers events c c') :
    (∃ samples, x.1 = .ok samples) ∧ x.2.Describes c' keys a.thread ∧
      events.countP Event.isCall = a.ops.toNat ∧ ∀ e ∈ events, e.Calm := by
  have describes : (⟨0, a.filled⟩ : Window).Describes c keys a.thread :=
    ⟨UInt64.zero_le, fun i below => feasible.fit i (by dsimp only at below; omega), filled⟩
  have room (seed : UInt64) :
      (Worker.ofThread a.thread a.filled keys (.ofSeed opts.valueSize seed) opts.latency).Roomy
      a.ops a.ops.toNat :=
    ⟨⟨feasible.fit, fun i below => feasible.fit i (by omega)⟩, feasible.sizes, feasible.bound⟩
  cases mixing_of_runs runs with
  | seedless none =>
    obtain ⟨seed, hseed, -⟩ := Checked.exists_add_eq_ok feasible.seed
    cases none.symm.trans hseed
  | @stopped seed _ _ _ _ failed =>
    cases (Worker.steps_solo describes (room seed) (Nat.le_of_eq (Nat.zero_add _))
      failed answers).result
  | @finished seed first w _ head =>
    obtain ⟨mid, answers₁, answers₂⟩ := Machine.answers_append_iff.1 answers
    obtain rfl : c' = mid := answers₂
    have done :=
      Worker.steps_solo describes (room seed) (Nat.le_of_eq (Nat.zero_add _)) head answers₁
    have left := done.describes
    rw [done.keys, done.thread] at left
    refine ⟨⟨_, rfl⟩, left, ?_, ?_⟩
    · rw [List.countP_append, List.countP_eq_length.2 done.calls, done.length_eq]
      rfl
    · intro e he
      rcases List.mem_append.1 he with he | he
      · exact Event.calm_of_isCall (done.calls e he)
      · obtain rfl := List.mem_singleton.1 he
        refine ⟨rfl, fun n h => ?_⟩
        cases h
        intro level
        cases level

end

/-! ## All workers of a phase -/

section

variable {α : Type} {keys : KeySpace} {parts : List Assignment} {worker : Assignment → Script α}
  {turns : List Nat} {events : List Event} {results : List α} {c c' : Contents}
  {none none' : UInt64 → Unit}

/-- The worker of an assignment does its part of a phase with its own share of
the table. -/
structure Alone (keys : KeySpace) (worker : Assignment → Script α) (events : List Event)
    (c c' : Contents) (a : Assignment) (r : α) : Prop where
  runs : (worker a).Runs (eventsOf (.worker a.thread) events) r
  answers :
    Contents.machine.Answers (eventsOf (.worker a.thread) events) (keys.share a.thread.toNat c)
    (keys.share a.thread.toNat c')

/-- If nothing goes wrong, then all workers of a phase are alone with their
shares. -/
theorem alone_of_runs (numbered : Numbered keys.threads parts)
    (owned : ∀ a, a.thread < keys.threads →
      (worker a).By (.worker a.thread) (keys.Owns (.worker a.thread)))
    (runs : (Script.interleave turns (parts.map worker)).Runs events results)
    (answers : Faults.none.machine.Answers events (c, none) (c', none')) :
    (∀ e ∈ events, e.who ∈ actors parts) ∧
      (∀ r ∈ results, ∃ a ∈ parts, Alone keys worker events c c' a r) ∧
      ∀ a ∈ parts, ∃ r, results[a.thread.toNat]? = some r ∧
        Alone keys worker events c c' a r := by
  have woven := (numbered.team owned).runs_of_interleave runs
  obtain ⟨worked, -⟩ := worked_of_runs numbered owned runs
  have lengths := worked.length_eq
  have alone {i : Nat} {a : Assignment} {r : α} (ha : parts[i]? = some a)
      (hr : results[i]? = some r) : Alone keys worker events c c' a r := by
    have own := (Faults.none.splits keys).answers (fun e he => (woven.mem e he).2) answers
      (.worker a.thread)
    exact ⟨worked.runs ha hr, ((Faults.part_none_follows a.thread).answers rfl own).1⟩
  refine ⟨fun e he => (woven.mem e he).1, fun r hr => ?_, fun a ha => ?_⟩
  · obtain ⟨i, bound, rfl⟩ := List.getElem_of_mem hr
    exact ⟨_, List.getElem_mem (lengths ▸ bound),
      alone (List.getElem?_eq_getElem (lengths ▸ bound)) (List.getElem?_eq_getElem bound)⟩
  · obtain ⟨i, bound, rfl⟩ := List.getElem_of_mem ha
    have here := List.getElem?_eq_getElem bound
    have result := List.getElem?_eq_getElem (lengths ▸ bound)
    rw [numbered.toNat_thread here]
    exact ⟨_, result, alone here result⟩

theorem forall_events (mem : ∀ e ∈ events, e.who ∈ actors parts) {P : Event → Prop}
    (each : ∀ a ∈ parts, ∀ e ∈ eventsOf (.worker a.thread) events, P e) : ∀ e ∈ events, P e := by
  intro e he
  obtain ⟨a, ha, who⟩ := List.mem_map.1 (mem e he)
  exact each a ha e (List.mem_filter.2 ⟨he, decide_eq_true who.symm⟩)

/-- Events of a phase can be counted worker by worker, since each of them is
one of a single worker. -/
theorem countP_eq_sum_parts (numbered : Numbered keys.threads parts) {p : Event → Bool}
    {n : Assignment → Nat} (mem : ∀ e ∈ events, e.who ∈ actors parts)
    (each : ∀ a ∈ parts, (eventsOf (.worker a.thread) events).countP p = n a) :
    events.countP p = (parts.map n).sum := by
  rw [countP_eq_sum_eventsOf numbered.distinct p mem, actors, List.map_map]
  exact congrArg List.sum (List.map_congr_left each)

end

/-! ## Both phases -/

section

variable {opts : RunOptions} {keys : KeySpace} {schedule : Schedule} {parts : List Assignment}
  {turns : List Nat} {events : List Event} {c c' : Contents} {none none' : UInt64 → Unit}

/-- The first phase adds the keys of all threads.  Each worker finds its own
share empty and keeps to it, so what one of them does has no effect on the
others. -/
theorem fillPhase_calm {filled : List (Except (Failure WorkError) Unit)}
    (numbered : Numbered keys.threads parts) (feasible : ∀ a ∈ parts, Feasible opts keys a)
    (runs : (Script.interleave turns (parts.map (filler opts keys))).Runs events filled)
    (answers : Faults.none.machine.Answers events (.empty, none) (c', none')) :
    (∀ r ∈ filled, r = .ok ()) ∧ (∀ e ∈ events, e.isInsert = true) ∧
      events.length = (parts.map fun a => a.filled.toNat).sum ∧
      ∀ a ∈ parts, (keys.share a.thread.toNat c').Fills keys a.thread 0 a.filled.toNat := by
  obtain ⟨mem, all, each⟩ :=
    alone_of_runs numbered (fun _ ha => (filler_alike ha).by_left) runs answers
  have nothing (thread : UInt64) : (keys.share thread.toNat .empty).Fills keys thread 0 0 := by
    have empty : keys.share thread.toNat .empty = .empty := by
      funext key
      exact ite_self _
    rw [empty]
    exact .of_empty keys thread 0
  have solo {a : Assignment} {r : Except (Failure WorkError) Unit} (ha : a ∈ parts)
      (alone : Alone keys (filler opts keys) events .empty c' a r) :=
    filler_solo (feasible a ha) (nothing a.thread) alone.runs alone.answers
  have inserts : ∀ e ∈ events, e.isInsert = true := by
    refine forall_events mem fun a ha => ?_
    obtain ⟨r, -, alone⟩ := each a ha
    exact (solo ha alone).2.2.2
  refine ⟨fun r hr => ?_, inserts, ?_, fun a ha => ?_⟩
  · obtain ⟨a, ha, alone⟩ := all r hr
    exact (solo ha alone).1
  · rw [← List.countP_eq_length.2 inserts]
    apply countP_eq_sum_parts numbered mem
    intro a ha
    obtain ⟨r, -, alone⟩ := each a ha
    obtain ⟨-, -, lengths, own⟩ := solo ha alone
    rw [List.countP_eq_length.2 own, lengths]
  · obtain ⟨r, -, alone⟩ := each a ha
    exact (solo ha alone).2.1

/-- The second phase does the operations of all threads, and their windows
describe what is left. -/
theorem mixPhase_calm {mixed : List (Except (Failure WorkError) (Option Histogram) × Window)}
    (numbered : Numbered keys.threads parts) (feasible : ∀ a ∈ parts, Feasible opts keys a)
    (filled : ∀ a ∈ parts, (keys.share a.thread.toNat c).Fills keys a.thread 0 a.filled.toNat)
    (runs : (Script.interleave turns (parts.map (watchedMixer opts keys schedule))).Runs events
      mixed)
    (answers : Faults.none.machine.Answers events (c, none) (c', none')) :
    (∀ r ∈ mixed, ∃ samples, r.1 = .ok samples) ∧ (∀ e ∈ events, e.Calm) ∧
      events.countP Event.isCall = (parts.map fun a => a.ops.toNat).sum ∧
      ∀ a ∈ parts, ∃ r, mixed[a.thread.toNat]? = some r ∧
        r.2.Describes (keys.share a.thread.toNat c') keys a.thread := by
  obtain ⟨mem, all, each⟩ :=
    alone_of_runs numbered (fun _ ha => (watchedMixer_alike ha).by_left) runs answers
  have solo {a : Assignment} {r : Except (Failure WorkError) (Option Histogram) × Window}
      (ha : a ∈ parts) (alone : Alone keys (watchedMixer opts keys schedule) events c c' a r) :=
    watchedMixer_solo (feasible a ha) (filled a ha) alone.runs alone.answers
  refine ⟨fun r hr => ?_, ?_, ?_, fun a ha => ?_⟩
  · obtain ⟨a, ha, alone⟩ := all r hr
    exact (solo ha alone).1
  · refine forall_events mem fun a ha => ?_
    obtain ⟨r, -, alone⟩ := each a ha
    exact (solo ha alone).2.2.2
  · apply countP_eq_sum_parts numbered mem
    intro a ha
    obtain ⟨r, -, alone⟩ := each a ha
    exact (solo ha alone).2.2.1
  · obtain ⟨r, here, alone⟩ := each a ha
    exact ⟨r, here, (solo ha alone).2.1⟩

end

/-! ## The whole run -/

/-- A run in which nothing was found wrong.  It does what the configuration
says, and what is in the table afterwards are the keys that lie in the windows
of the workers. -/
structure WentWell (config : Config) (keys : KeySpace) (events : List Event) (x : Watched)
    (c : Contents) : Prop where
  reported : ∃ report, x.report = .ok report
  filled : ∀ r ∈ x.filled, r = .ok ()
  mixed : ∀ r ∈ x.mixed, ∃ samples, r.1 = .ok samples
  calm : ∀ e ∈ events, e.Calm
  inserts : ∀ e ∈ firstPhase events, e.isInsert = true
  prefill : (firstPhase events).length = config.prefillElems.toNat
  ops : (secondPhase events).countP Event.isCall = config.totalOps.toNat
  contents : ∀ key, (c key).isSome ↔ ∃ t < config.threads, ∃ r seq, x.mixed[t.toNat]? = some r ∧
    r.2.erased ≤ seq ∧ seq < r.2.inserted ∧ keys.key seq t = .ok key

section

variable {config : Config} {schedule : Schedule} {opts : RunOptions} {turns : Turns}
  {keys : KeySpace} {parts : List Assignment} {events : List Event} {x : Watched}
  {c c' : Contents} {none none' : UInt64 → Unit} {t₁ t₂ t₃ : Nat}

theorem exists_join {α : Type} {results : List (Except (Failure WorkError) α)}
    (all : ∀ r ∈ results, ∃ a, r = .ok a) : ∃ list, join results = .ok list := by
  induction results with
  | nil => exact ⟨[], rfl⟩
  | cons r results ih =>
    obtain ⟨a, rfl⟩ := all r List.mem_cons_self
    obtain ⟨rest, hrest⟩ := ih fun r hr => all r (List.mem_cons_of_mem _ hr)
    unfold join at hrest ⊢
    rw [List.mapM_cons, hrest]
    exact ⟨a :: rest, rfl⟩

/-- Workers that all succeeded have recorded what can be merged, so there is a
report. -/
theorem exists_report {mixed : List (Except (Failure WorkError) (Option Histogram) × Window)}
    {ending : List Event} {report : Except (Failure RunError) Report}
    (all : ∀ r ∈ mixed, ∃ samples, r.1 = .ok samples)
    (alike : List.Forall₂ MixedAlike mixed mixed)
    (ended : Ended config t₁ t₂ t₃ (join (mixed.map Prod.fst)) ending report) :
    (∃ r, report = .ok r) ∧ ∀ e ∈ ending, e.Calm ∧ e.isCall = false := by
  have results :
      List.Forall₂ (Task.EndsAlike SameCount) (mixed.map Prod.fst) (mixed.map Prod.fst) := by
    rw [List.forall₂_map_left_iff, List.forall₂_map_right_iff]
    exact alike.imp fun _ _ h => h.1
  have succeeded : ∃ list, join (mixed.map Prod.fst) = .ok list := by
    apply exists_join
    intro r hr
    obtain ⟨y, hy, rfl⟩ := List.mem_map.1 hr
    exact all y hy
  rcases succeeded with ⟨list, joined⟩
  rcases join_alike results with ⟨e, failed, -⟩ | ⟨latencies, latencies', done, -, same⟩
  · rw [joined] at failed
    cases failed
  · obtain ⟨m, merged, -⟩ := Histogram.exists_mergeAll (recorded_of_alike same)
    rw [done] at ended
    cases ended with
    | reported _ t₄ =>
      refine ⟨⟨_, by rw [conclude, merged]⟩, fun e he => ?_⟩
      obtain rfl := List.mem_singleton.1 he
      exact ⟨⟨rfl, fun n h => by cases h⟩, rfl⟩

/-- Windows that describe the shares of all threads describe the whole table,
since every key lies in the share of one thread. -/
theorem isSome_iff_of_windows
    {mixed : List (Except (Failure WorkError) (Option Histogram) × Window)}
    (numbered : Numbered keys.threads parts) (short : keys.size < 2 ^ 63)
    (each : ∀ a ∈ parts, ∃ r, mixed[a.thread.toNat]? = some r ∧
      r.2.Describes (keys.share a.thread.toNat c) keys a.thread) (key : Bytes) :
    (c key).isSome ↔ ∃ t < keys.threads, ∃ r seq, mixed[t.toNat]? = some r ∧
      r.2.erased ≤ seq ∧ seq < r.2.inserted ∧ keys.key seq t = .ok key := by
  have at_thread {t : UInt64} (member : t < keys.threads) : ∃ r, mixed[t.toNat]? = some r ∧
      r.2.Describes (keys.share t.toNat c) keys t := by
    obtain ⟨a, ha, rfl⟩ := numbered.exists_part member
    exact each a (List.mem_of_getElem? ha)
  constructor
  · intro present
    have bound := keys.ownerOf_lt key
    have owner : (UInt64.ofNat (keys.ownerOf key)).toNat = keys.ownerOf key :=
      UInt64.toNat_ofNat_of_lt' (Nat.lt_trans bound keys.threads.toNat_lt_size)
    have member : UInt64.ofNat (keys.ownerOf key) < keys.threads := by
      rw [UInt64.lt_iff_toNat_lt, owner]
      exact bound
    obtain ⟨r, here, describes⟩ := at_thread member
    rw [owner] at here describes
    have mine : keys.share (keys.ownerOf key) c key = c key := keys.share_of_owner rfl
    rw [← mine, describes.fills] at present
    rcases present with ⟨seq, above, below, same⟩
    have value : (UInt64.ofNat seq).toNat = seq :=
      UInt64.toNat_ofNat_of_lt' (Nat.lt_trans below r.2.inserted.toNat_lt_size)
    refine ⟨_, member, r, .ofNat seq, by rwa [owner], ?_, ?_, ?_⟩
    · rwa [UInt64.le_iff_toNat_le, value]
    · rwa [UInt64.lt_iff_toNat_lt, value]
    · rw [keys.key_eq_ok_iff, value]
      exact ⟨describes.fit seq below, short, same⟩
  · intro within
    rcases within with ⟨t, member, r, seq, here, above, below, hkey⟩
    obtain ⟨r', here', describes⟩ := at_thread member
    rw [here] at here'
    obtain rfl := Option.some.inj here'
    obtain ⟨-, -, same⟩ := keys.key_eq_ok_iff.1 hkey
    have present := (describes.fills key).2
      ⟨seq.toNat, UInt64.le_iff_toNat_le.1 above, UInt64.lt_iff_toNat_lt.1 below, same⟩
    unfold KeySpace.share at present
    split at present
    · exact present
    · cases present

/-- A run goes well if every thread can do its part, and nothing is wrong with
the table. -/
theorem wentWell_of_ran (numbered : Numbered keys.threads parts)
    (threads : keys.threads = config.threads) (short : keys.size < 2 ^ 63)
    (feasible : ∀ a ∈ parts, Feasible opts keys a)
    (prefill : (parts.map fun a => a.filled.toNat).sum = config.prefillElems.toNat)
    (ops : (parts.map fun a => a.ops.toNat).sum = config.totalOps.toNat)
    (ran : Ran config schedule opts turns keys parts events x)
    (answers : Faults.none.machine.Answers events (.empty, none) (c', none')) :
    WentWell config keys events x c' := by
  obtain ⟨⟨t, whole⟩, fillRuns, rest⟩ := ran.split numbered
  obtain ⟨⟨c₁, none₁⟩, answers₁, answers₂⟩ := ran.answers numbered answers
  obtain ⟨allFilled, inserts, lengths, shares⟩ :=
    fillPhase_calm numbered feasible fillRuns answers₁
  rcases rest with ⟨e, failed, -⟩ | ⟨_, t₁, t₂, t₃, mixes, ending, -, mixRuns, ended, second⟩
  · obtain ⟨units, joined⟩ := exists_join fun r hr => ⟨(), allFilled r hr⟩
    rw [joined] at failed
    cases failed
  rw [second] at answers₂
  have own := answers_of_mixed (fun e he => (ended.who_ending e he).2) answers₂
  obtain ⟨allMixed, calm, calls, windows⟩ := mixPhase_calm numbered feasible shares mixRuns own
  obtain ⟨-, alike, -⟩ :=
    phase_alike_all numbered (fun _ => watchedMixer_alike) mixRuns mixRuns own own
      fun t _ => ⟨rfl, rfl⟩
  obtain ⟨reported, finished⟩ := exists_report allMixed alike ended
  have notes : ∀ e ∈ announced parts, e.Calm ∧ e.isCall = false := by
    intro e he
    obtain ⟨a, -, rfl⟩ := List.mem_map.1 he
    refine ⟨⟨rfl, fun n h => ?_⟩, rfl⟩
    cases h
    intro level
    cases level
  have times (t : Nat) : (looked t).Calm := ⟨rfl, fun n h => by cases h⟩
  refine ⟨reported, allFilled, allMixed, ?calm, inserts, ?prefill, ?ops, ?contents⟩
  case calm =>
    intro e he
    rw [whole, second] at he
    simp only [List.mem_cons, List.mem_append] at he
    rcases he with rfl | he | rfl | rfl | he | he | he
    · exact times t
    · exact Event.calm_of_isCall (Event.isCall_of_isInsert (inserts e he))
    · exact times t₂
    · exact times t₃
    · exact (notes e he).1
    · exact calm e he
    · exact (finished e he).1
  case prefill => rw [lengths, prefill]
  case ops =>
    have quiet {list : List Event} (h : ∀ e ∈ list, e.Calm ∧ e.isCall = false) :
        list.countP Event.isCall = 0 :=
      List.countP_eq_zero.2 fun e he => by simp [(h e he).2]
    have look (t : Nat) (list : List Event) :
        (looked t :: list).countP Event.isCall = list.countP Event.isCall :=
      List.countP_cons_of_neg (by simp [looked, Event.isCall, Event.call?])
    rw [second, look, look, List.countP_append, List.countP_append, quiet notes, quiet finished,
      calls, ops]
    omega
  case contents =>
    rw [← threads]
    exact isSome_iff_of_windows numbered short windows

end

theorem exists_new?_eq_ok {threads : UInt64} {size : Nat} (pos : 0 < threads) (long : 8 ≤ size) :
    ∃ keys, KeySpace.new? threads size = .ok keys := by
  unfold KeySpace.new?
  rw [dif_pos pos, dif_pos long]
  exact ⟨_, rfl⟩

/-- There are no false alarms.  For every configuration that was derived from
settings and has at most `2 ^ 30` threads, against every correct table that is
ready and empty, every run succeeds, whatever the schedule and the turns are,
as long as keys and values can be that long: no call is answered unexpectedly,
no alarm is raised and no worker crashes.  The first phase makes as many
inserts as keys are to be filled in, the second one as many calls as there are
operations, and the keys in the table afterwards are those in the windows of
the workers. -/
theorem no_false_alarm {σ : Type} (settings : Settings) (config : Config) (schedule : Schedule)
    (opts : RunOptions) (turns : Turns) (policy : AlarmPolicy) (host : Host σ) (s : σ)
    {ready : σ → Prop} {contents : σ → Contents}
    (accepted : Config.ofSettings settings = .ok config) (few : config.threads.toNat ≤ 2 ^ 30)
    (long : 8 ≤ opts.keySize) (sizes : opts.keySize < 2 ^ 63 ∧ opts.valueSize < 2 ^ 63)
    (correct : host.Correct ready contents) (start : ready s) (nothing : contents s = .empty) :
    let played := host.play policy (watch config schedule opts turns) s
    ∃ keys x report, KeySpace.new? config.threads opts.keySize = .ok keys ∧
      played.result? = some x ∧ x.report = .ok report ∧
      host.play policy (run config schedule opts turns).run s =
        ⟨some (.ok report), played.events, played.state⟩ ∧
      WentWell config keys played.events x (contents played.state) := by
  intro played
  obtain ⟨some_threads, -⟩ := Config.bounds_of_ofSettings accepted
  obtain ⟨keys, hkeys⟩ := exists_new?_eq_ok some_threads long
  obtain ⟨threads, size⟩ := threads_of_new?_eq_ok hkeys
  have hparts := assignments_eq_ok config
  have numbered : Numbered keys.threads (partsOf config) := by
    rw [threads]
    exact numbered_of_assignments hparts
  have feasible : ∀ a ∈ partsOf config, Feasible opts keys a :=
    fun a ha => feasible_of_ofSettings accepted few threads (size ▸ sizes) ha
  obtain ⟨events, x, s', played_eq, runs, answers⟩ :=
    host.exists_play (watch config schedule opts turns) s
  have phases : watch config schedule opts turns =
      watchPhases config schedule opts turns keys (partsOf config) := by
    unfold watch
    rw [hkeys, hparts]
  rw [phases] at runs
  -- seen through its view, the host is a table in which nothing goes wrong
  have own := (correct.follows.answers start answers).1
  rw [nothing] at own
  have well := wentWell_of_ran numbered threads (size ▸ sizes.1) feasible
    (sum_parts config.prefillElems some_threads fun _ => rfl)
      (sum_parts config.totalOps some_threads fun _ => rfl)
    (ran_of_runs runs) own
  -- no alarm is raised, so it does not matter what the policy would do about one
  have same : played = ⟨some x, events, s'⟩ := by
    rw [← played_eq]
    apply host.playAfter_eq_goOn
    intro e he
    have all : (host.play .goOn (watch config schedule opts turns) s).events = events :=
      congrArg Performance.events played_eq
    have mem : e ∈ events := all ▸ he
    exact (well.calm e mem).1
  obtain ⟨report, reported⟩ := well.reported
  refine ⟨keys, x, report, hkeys, congrArg Performance.result? same, reported, ?_, ?_⟩
  · rw [← report_watch, Host.play, host.playAfter_map]
    change (⟨played.result?.map Watched.report, played.events, played.state⟩ :
      Performance _ _) = _
    rw [same, Option.map_some, reported]
  · rw [same]
    exact well

/-- Two threads, all kinds of operations, turns in both phases, and a program
that ends with an alarm. -/
theorem no_false_alarm_two_threads :
    let config : Config := ⟨⟨20, 20, 20, 20, 20⟩, 4, 8, 2, 2⟩
    let schedule : Schedule := ⟨.ofFn fun i => OpKind.all.getD (i.val % 5) .read⟩
    let s := Store.ofBackend 4 .hashed
    let played := (Host.ofTable Store.table 7 id).play .exit
      (watch config schedule ⟨8, 8, true⟩ ⟨[1, 0], [0, 1, 1, 0]⟩) s
    ∃ keys x, played.result? = some x ∧
      WentWell config keys played.events x played.state.contents := by
  intro config schedule s played
  obtain ⟨keys, x, report, -, ends, -, -, well⟩ :=
    no_false_alarm ⟨⟨20, 20, 20, 20, 20⟩, 2, 50, 200, 2⟩ config schedule ⟨8, 8, true⟩
      ⟨[1, 0], [0, 1, 1, 0]⟩ .exit (Host.ofTable Store.table 7 id) s (by rfl) (by decide)
      (by decide) (by decide) (Store.correct 7 id) rfl (Store.contents_ofBackend 4 .hashed)
  exact ⟨keys, x, ends, well⟩

/-- Keys that are too long to exist end a worker at its first operation, though
there is nothing wrong. -/
theorem crashed_by_too_long_keys :
    let config : Config := ⟨⟨100, 0, 0, 0, 0⟩, 1, 1, 0, 1⟩
    let opts : RunOptions := ⟨2 ^ 63, 8, false⟩
    let host := Host.ofTable Store.table 0 id
    let s := Store.ofBackend 1 .ordered
    Config.ofSettings ⟨⟨100, 0, 0, 0, 0⟩, 0, 0, 100, 1⟩ = .ok config ∧
      config.threads.toNat ≤ 2 ^ 30 ∧ 8 ≤ opts.keySize ∧
      host.Correct (fun s => s.isReady = true) Store.contents ∧ s.isReady = true ∧
      s.contents = .empty ∧
      (host.play .goOn (run config ⟨.replicate 100 .read⟩ opts .inOrder).run s).result? =
        some (.error (.error .workerCrashed)) :=
  ⟨by rfl, by decide, by decide, Store.correct 0 id, rfl, Store.contents_ofBackend 1 .ordered,
    by rfl⟩

end Run

end TableProbe
