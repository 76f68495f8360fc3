import TableProbe.Proofs.Run.Workers
import TableProbe.Proofs.Table.Correct

/-!
# The interleaving cannot be observed

Two runs of one configuration may differ in the turns of their workers, in the
tables that they call and in how long everything takes.  As long as the tables
hold the same and the same goes wrong, they are the same run but for times; and
one worker sees no difference as long as that is so for its own keys.
-/

namespace TableProbe

/-- What a report says apart from times: how many operations there were, how
many keys were filled in, and how many latencies were recorded. -/
def Report.untimed (r : Report) : UInt64 × UInt64 × Option Nat :=
  (r.totalOps, r.prefillElems, r.latency.map Histogram.total)

namespace Run

/-- How the workers of the second phase ended, apart from times: their results,
with the number of recorded latencies, and their windows. -/
def Watched.ends (x : Watched) : List (Except (Failure WorkError) (Option Nat) × Window) :=
  x.mixed.map fun r => (r.1.map (Option.map Histogram.total), r.2)

theorem MixedAlike.end_eq {r r' : Except (Failure WorkError) (Option Histogram) × Window}
    (alike : MixedAlike r r') :
    (r.1.map (Option.map Histogram.total), r.2) =
      (r'.1.map (Option.map Histogram.total), r'.2) := by
  rcases r with ⟨r, window⟩
  rcases r' with ⟨r', window'⟩
  rcases alike with ⟨ends, windows⟩
  obtain rfl : window = window' := windows
  cases ends with
  | ok same => exact congrArg (fun n => (Except.ok n, window)) same.total_eq
  | error e => rfl

/-! ## The same reports -/

/-- If the workers end alike, then both runs go on alike: with the same error,
or with equally many latencies of each worker. -/
theorem join_alike {results results' : List (Except (Failure WorkError) (Option Histogram))}
    (alike : List.Forall₂ (Task.EndsAlike SameCount) results results') :
    (∃ e, join results = .error e ∧ join results' = .error e) ∨
      ∃ latencies latencies', join results = .ok latencies ∧ join results' = .ok latencies' ∧
        List.Forall₂ SameCount latencies latencies' := by
  induction alike with
  | nil => exact .inr ⟨[], [], rfl, rfl, .nil⟩
  | @cons r r' results results' here _ ih =>
    unfold join at ih ⊢
    rw [List.mapM_cons, List.mapM_cons]
    cases here with
    | error e => exact .inl ⟨_, rfl, rfl⟩
    | ok same =>
      rcases ih with ⟨e, failed, failed'⟩ | ⟨latencies, latencies', done, done', rest⟩
      · rw [failed, failed']
        exact .inl ⟨e, rfl, rfl⟩
      · rw [done, done']
        exact .inr ⟨_, _, rfl, rfl, .cons same rest⟩

/-- The number of merged latencies depends on how many each worker recorded,
not on how long the calls took. -/
theorem sumOf_alike {latencies latencies' : List (Option Histogram)}
    (alike : List.Forall₂ SameCount latencies latencies') :
    Histogram.sumOf latencies = Histogram.sumOf latencies' := by
  have totals : (latencies.filterMap id).map Histogram.total =
      (latencies'.filterMap id).map Histogram.total := by
    induction alike with
    | nil => rfl
    | cons same _ ih =>
      rcases same with ⟨rfl, rfl⟩ | ⟨values, values', rfl, rfl, lengths⟩
      · exact ih
      · have head : (Histogram.ofLatencies values).total =
            (Histogram.ofLatencies values').total := by
          rw [Histogram.total_ofLatencies, Histogram.total_ofLatencies, lengths]
        exact congrArg₂ List.cons head ih
  unfold Histogram.sumOf
  generalize latencies.filterMap id = list at totals ⊢
  generalize latencies'.filterMap id = list' at totals ⊢
  cases list with
  | nil =>
    cases list' with
    | nil => rfl
    | cons h' rest' => cases totals
  | cons h rest =>
    cases list' with
    | nil => cases totals
    | cons h' rest' =>
      dsimp only
      rw [totals]

theorem recorded_of_alike {latencies latencies' : List (Option Histogram)}
    (alike : List.Forall₂ SameCount latencies latencies') :
    ∀ h, some h ∈ latencies → h.Recorded := by
  induction alike with
  | nil =>
    intro h mem
    cases mem
  | cons same _ ih =>
    intro h mem
    rcases List.mem_cons.1 mem with here | mem
    · exact (here ▸ same).recorded
    · exact ih h mem

/-- From workers that recorded equally many latencies both runs make the same
report, but for times.  Nothing else in a report depends on the latencies or on
the clock. -/
theorem conclude_alike (config : Config) {latencies latencies' : List (Option Histogram)}
    (alike : List.Forall₂ SameCount latencies latencies') (t₁ t₂ t₃ t₄ u₁ u₂ u₃ u₄ : Nat) :
    (conclude config latencies t₁ t₂ t₃ t₄).map Report.untimed =
      (conclude config latencies' u₁ u₂ u₃ u₄).map Report.untimed := by
  have alike' : List.Forall₂ SameCount latencies' latencies :=
    (alike.imp fun _ _ => SameCount.symm).flip
  obtain ⟨m, merged, total⟩ := Histogram.exists_mergeAll (recorded_of_alike alike)
  obtain ⟨m', merged', total'⟩ := Histogram.exists_mergeAll (recorded_of_alike alike')
  unfold conclude
  rw [merged, merged']
  simp only [Except.map, Report.untimed, total, total', sumOf_alike alike]

/-! ## The events of a whole run -/

section

variable {config : Config} {t₁ t₂ t₃ : Nat} {parts : List Assignment} {mixes ending : List Event}

theorem who_announced : ∀ e ∈ announced parts, e.who = .main ∧ e.call? = none := by
  intro e he
  obtain ⟨a, -, rfl⟩ := List.mem_map.1 he
  exact ⟨rfl, rfl⟩

/-- The end of a run is the main thread's alone: it looks at the clock at most,
and does not call the table. -/
theorem Ended.who_ending {results : Except (Failure RunError) (List (Option Histogram))}
    {report : Except (Failure RunError) Report}
    (ended : Ended config t₁ t₂ t₃ results ending report) :
    ∀ e ∈ ending, e.who = .main ∧ e.call? = none := by
  intro e he
  cases ended with
  | failed _ => cases he
  | reported _ t₄ =>
    obtain rfl := List.mem_singleton.1 he
    exact ⟨rfl, rfl⟩

/-- What the main thread does before and after the workers of the second phase
has no effect on the table. -/
theorem answers_of_mixed {σ : Type} {m : Machine σ} {x y : σ}
    (quiet : ∀ e ∈ ending, e.call? = none)
    (answers : m.Answers (looked t₂ :: looked t₃ :: (announced parts ++ (mixes ++ ending))) x y) :
    m.Answers mixes x y := by
  obtain ⟨mid, notes, rest⟩ := Machine.answers_append_iff.1 answers
  obtain ⟨last, here, end_⟩ := Machine.answers_append_iff.1 rest
  obtain rfl := (Machine.answers_iff_of_no_calls fun e he => (who_announced e he).2).1 notes
  obtain rfl := (Machine.answers_iff_of_no_calls quiet).1 end_
  exact here

/-- What the clock shows is not seen. -/
theorem seenBy_looked_cons (who : Actor) (t u : Nat) {later later' : List Event}
    (same : seenBy who later = seenBy who later') :
    seenBy who (looked t :: later) = seenBy who (looked u :: later') := by
  have first : seenBy who [looked t] = seenBy who [looked u] := by
    rw [seenBy_eq_filter, seenBy_eq_filter]
    rfl
  rw [← List.singleton_append, seenBy_append, first, same, ← seenBy_append]
  rfl

/-- Of the second phase a worker sees what it did itself; all that is done
before and after that is done by the main thread. -/
theorem seenBy_worker_mixed (t : UInt64) (quiet : ∀ e ∈ ending, e.who = .main) :
    seenBy (.worker t) (looked t₂ :: looked t₃ :: (announced parts ++ (mixes ++ ending))) =
      seenBy (.worker t) mixes := by
  have notes : seenBy (.worker t) (announced parts) = [] :=
    seenBy_eq_nil fun e he heq => by
      rw [(who_announced e he).1] at heq
      cases heq
  have last : seenBy (.worker t) ending = [] :=
    seenBy_eq_nil fun e he heq => by
      rw [quiet e he] at heq
      cases heq
  have looks (list : List Event) :
      seenBy (.worker t) (looked t₂ :: looked t₃ :: list) = seenBy (.worker t) list := rfl
  rw [looks, seenBy_append, seenBy_append, notes, last, List.nil_append, List.append_nil]

variable {schedule : Schedule} {opts : RunOptions} {turns turns' : Turns} {keys : KeySpace}
  {events events' : List Event} {x x' : Watched} {φ : Type} {faults faults' : Faults φ}
  {a b a' b' : Contents × (UInt64 → φ)}

/-- The calls of a run are answered phase by phase: there is a state in which
the first phase leaves the table and the second one finds it. -/
theorem Ran.answers {σ : Type} {m : Machine σ} {s s' : σ}
    (numbered : Numbered keys.threads parts)
    (ran : Ran config schedule opts turns keys parts events x) (answers : m.Answers events s s') :
    ∃ mid, m.Answers (firstPhase events) s mid ∧ m.Answers (secondPhase events) mid s' := by
  obtain ⟨⟨t, whole⟩, -⟩ := ran.split numbered
  rw [whole, Machine.answers_cons_of_call?_eq_none rfl] at answers
  exact Machine.answers_append_iff.1 answers

/-- Runs whose workers ended alike end with the same report but for times, and
every thread sees the same in both of them. -/
theorem ended_alike {u₁ u₂ u₃ : Nat} {ending' : List Event}
    {mixed mixed' : List (Except (Failure WorkError) (Option Histogram) × Window)}
    {report report' : Except (Failure RunError) Report}
    (alike : List.Forall₂ MixedAlike mixed mixed')
    (ended : Ended config t₁ t₂ t₃ (join (mixed.map Prod.fst)) ending report)
    (ended' : Ended config u₁ u₂ u₃ (join (mixed'.map Prod.fst)) ending' report') :
    report.map Report.untimed = report'.map Report.untimed ∧
      ∀ who, seenBy who ending = seenBy who ending' := by
  have results :
      List.Forall₂ (Task.EndsAlike SameCount) (mixed.map Prod.fst) (mixed'.map Prod.fst) := by
    rw [List.forall₂_map_left_iff, List.forall₂_map_right_iff]
    exact alike.imp fun _ _ h => h.1
  rcases join_alike results with ⟨e, failed, failed'⟩ | ⟨latencies, latencies', done, done', same⟩
  · rw [failed] at ended
    rw [failed'] at ended'
    cases ended
    cases ended'
    exact ⟨rfl, fun _ => rfl⟩
  · rw [done] at ended
    rw [done'] at ended'
    cases ended with
    | reported _ t₄ =>
      cases ended' with
      | reported _ u₄ =>
        refine ⟨conclude_alike config same .., fun who => ?_⟩
        rw [seenBy_eq_filter, seenBy_eq_filter]
        rfl

/-- Runs of one configuration in which the tables hold the same for all
threads, and the same goes wrong. -/
theorem ran_alike (numbered : Numbered keys.threads parts)
    (ran : Ran config schedule opts turns keys parts events x)
    (ran' : Ran config schedule opts turns' keys parts events' x')
    (answers : faults.machine.Answers events a b)
    (answers' : faults'.machine.Answers events' a' b')
    (same : ∀ t < keys.threads, faults t = faults' t ∧
      Faults.view keys (.worker t) a = Faults.view keys (.worker t) a') :
    x.filled = x'.filled ∧ x.ends = x'.ends ∧
      x.report.map Report.untimed = x'.report.map Report.untimed ∧
      (∀ who, seenBy who events = seenBy who events') ∧
      ∀ t < keys.threads, Faults.view keys (.worker t) b = Faults.view keys (.worker t) b' := by
  obtain ⟨⟨u, whole⟩, fillRuns, rest⟩ := ran.split numbered
  obtain ⟨⟨u', whole'⟩, fillRuns', rest'⟩ := ran'.split numbered
  obtain ⟨mid, answers₁, answers₂⟩ := ran.answers numbered answers
  obtain ⟨mid', answers₁', answers₂'⟩ := ran'.answers numbered answers'
  obtain ⟨seen, filled, views⟩ :=
    phase_alike_all numbered (fun _ => filler_alike) fillRuns fillRuns' answers₁ answers₁' same
  rw [List.forall₂_eq_eq_eq] at filled
  -- the first phases are the same, so what is left to compare are the second ones
  suffices later : x.ends = x'.ends ∧ x.report.map Report.untimed = x'.report.map Report.untimed ∧
      (∀ who, seenBy who (secondPhase events) = seenBy who (secondPhase events')) ∧
      ∀ t < keys.threads, Faults.view keys (.worker t) b = Faults.view keys (.worker t) b' by
    obtain ⟨ends, report, seen', views'⟩ := later
    refine ⟨filled, ends, report, fun who => ?_, views'⟩
    rw [whole, whole']
    apply seenBy_looked_cons
    rw [seenBy_append, seenBy_append, seen, seen']
  -- whether there is a second phase depends on the results of the first one alone
  rcases rest with ⟨e, failed, reported, nothing, second⟩ |
    ⟨_, t₁, t₂, t₃, mixes, ending, joined, mixRuns, ended, second⟩
  · rcases rest' with ⟨e', failed', reported', nothing', second'⟩ | ⟨_, _, _, _, _, _, joined', -⟩
    · rw [filled, failed'] at failed
      cases failed
      rw [second] at answers₂ ⊢
      rw [second'] at answers₂' ⊢
      cases answers₂
      cases answers₂'
      exact ⟨by rw [Watched.ends, Watched.ends, nothing, nothing'], by rw [reported, reported'],
        fun _ => rfl, views⟩
    · rw [filled, joined'] at failed
      cases failed
  · rcases rest' with ⟨e', failed', -⟩ |
      ⟨_, u₁, u₂, u₃, mixes', ending', -, mixRuns', ended', second'⟩
    · rw [filled, failed'] at joined
      cases joined
    · rw [second] at answers₂ ⊢
      rw [second'] at answers₂' ⊢
      obtain ⟨seen', results, views'⟩ :=
        phase_alike_all numbered (fun _ => watchedMixer_alike) mixRuns mixRuns'
          (answers_of_mixed (fun e he => (ended.who_ending e he).2) answers₂)
          (answers_of_mixed (fun e he => (ended'.who_ending e he).2) answers₂')
          fun t member => ⟨(same t member).1, views t member⟩
      obtain ⟨report, last⟩ := ended_alike results ended ended'
      refine ⟨?_, report, fun who => ?_, views'⟩
      · exact List.forall₂_eq_eq_eq ▸ List.forall₂_map_left_iff.2
          (List.forall₂_map_right_iff.2 (results.imp fun _ _ h => h.end_eq))
      · apply seenBy_looked_cons
        apply seenBy_looked_cons
        rw [seenBy_append, seenBy_append, seenBy_append, seenBy_append, seen', last]

/-- What one worker sees of two runs of one configuration depends on its own
keys and on what goes wrong for itself. -/
theorem ran_alike_at (numbered : Numbered keys.threads parts)
    (ran : Ran config schedule opts turns keys parts events x)
    (ran' : Ran config schedule opts turns' keys parts events' x')
    (answers : faults.machine.Answers events a b)
    (answers' : faults'.machine.Answers events' a' b') {t : UInt64} (member : t < keys.threads)
    (sameFaults : faults t = faults' t)
    (sameView : Faults.view keys (.worker t) a = Faults.view keys (.worker t) a') :
    x.filled[t.toNat]? = x'.filled[t.toNat]? ∧
      seenBy (.worker t) (firstPhase events) = seenBy (.worker t) (firstPhase events') ∧
      (x.mixed ≠ [] → x'.mixed ≠ [] →
        x.ends[t.toNat]? = x'.ends[t.toNat]? ∧
          seenBy (.worker t) events = seenBy (.worker t) events') := by
  obtain ⟨⟨u, whole⟩, fillRuns, rest⟩ := ran.split numbered
  obtain ⟨⟨u', whole'⟩, fillRuns', rest'⟩ := ran'.split numbered
  obtain ⟨mid, answers₁, answers₂⟩ := ran.answers numbered answers
  obtain ⟨mid', answers₁', answers₂'⟩ := ran'.answers numbered answers'
  obtain ⟨seen, ⟨r, r', hr, hr', results⟩, views⟩ :=
    phase_alike numbered (fun _ => filler_alike) fillRuns fillRuns' answers₁ answers₁' member
      sameFaults sameView
  refine ⟨by rw [hr, hr', results], seen, fun works works' => ?_⟩
  rcases rest with ⟨e, -, -, nothing, -⟩ |
    ⟨_, t₁, t₂, t₃, mixes, ending, -, mixRuns, ended, second⟩
  · exact absurd nothing works
  rcases rest' with ⟨e', -, -, nothing', -⟩ |
    ⟨_, u₁, u₂, u₃, mixes', ending', -, mixRuns', ended', second'⟩
  · exact absurd nothing' works'
  have quiet := ended.who_ending
  have quiet' := ended'.who_ending
  rw [second] at answers₂
  rw [second'] at answers₂'
  obtain ⟨seen', ⟨q, q', hq, hq', alike⟩, -⟩ :=
    phase_alike numbered (fun _ => watchedMixer_alike) mixRuns mixRuns'
      (answers_of_mixed (fun e he => (quiet e he).2) answers₂)
      (answers_of_mixed (fun e he => (quiet' e he).2) answers₂') member sameFaults views
  constructor
  · simp only [Watched.ends, List.getElem?_map, hq, hq', Option.map_some, alike.end_eq]
  · rw [whole, whole']
    apply seenBy_looked_cons
    rw [seenBy_append, seenBy_append, seen, second, second',
      seenBy_worker_mixed t fun e he => (quiet e he).1,
      seenBy_worker_mixed t fun e he => (quiet' e he).1, seen']

end

theorem view_eq {φ : Type} {keys : KeySpace} {t : UInt64} {a a' : Contents × (UInt64 → φ)}
    (states : a.2 t = a'.2 t)
    (contents : ∀ key, keys.ownerOf key = t.toNat → a.1 key = a'.1 key) :
    Faults.view keys (.worker t) a = Faults.view keys (.worker t) a' := by
  rw [Faults.view_worker, Faults.view_worker, states, keys.share_eq_iff.2 contents]

/-- The views of all threads make up the contents, since each key is owned by
one of them. -/
theorem contents_eq_of_views {φ : Type} {keys : KeySpace} {a a' : Contents × (UInt64 → φ)}
    (views : ∀ t < keys.threads, Faults.view keys (.worker t) a =
      Faults.view keys (.worker t) a') :
    a.1 = a'.1 := by
  apply keys.eq_of_share_eq
  intro n bound
  have value : (UInt64.ofNat n).toNat = n :=
    UInt64.toNat_ofNat_of_lt' (Nat.lt_trans bound keys.threads.toNat_lt_size)
  have here := views (.ofNat n) (by rw [UInt64.lt_iff_toNat_lt, value]; exact bound)
  injection here with here
  injection here with here
  rwa [value] at here

/-- The interleaving of the workers cannot be observed.  Two runs of one
configuration whose tables hold the same, and in which the same goes wrong for
each thread, are the same run but for times: every thread does and sees the
same, and all results, windows and contents are the same.  Moreover a worker
sees no difference as long as the tables agree on the keys of its own thread
and the same goes wrong for itself: in the first phase, and in the second one
if both runs have it. -/
theorem interleaving_not_observable {σ₁ σ₂ φ : Type} (config : Config) (schedule : Schedule)
    (opts : RunOptions) (turns₁ turns₂ : Turns) (host₁ : Host σ₁) (host₂ : Host σ₂)
    (faults₁ faults₂ : Faults φ) {view₁ : σ₁ → Contents × (UInt64 → φ)}
    {view₂ : σ₂ → Contents × (UInt64 → φ)} {ready₁ : σ₁ → Prop} {ready₂ : σ₂ → Prop}
    (follows₁ : host₁.machine.Follows faults₁.machine view₁ ready₁)
    (follows₂ : host₂.machine.Follows faults₂.machine view₂ ready₂) (s₁ : σ₁) (s₂ : σ₂)
    (start₁ : ready₁ s₁) (start₂ : ready₂ s₂) :
    let p₁ := host₁.play .goOn (watch config schedule opts turns₁) s₁
    let p₂ := host₂.play .goOn (watch config schedule opts turns₂) s₂
    (∀ turns, Watched.report <$> watch config schedule opts turns =
      (run config schedule opts turns).run) ∧ ∃ x₁ x₂, p₁.result? = some x₁ ∧
      p₂.result? = some x₂ ∧
        (faults₁ = faults₂ → view₁ s₁ = view₂ s₂ →
          (∀ who, seenBy who p₁.events = seenBy who p₂.events) ∧
          x₁.filled = x₂.filled ∧ x₁.ends = x₂.ends ∧ (view₁ p₁.state).1 = (view₂ p₂.state).1 ∧
          (p₁.events.filterMap Event.note?).Perm (p₂.events.filterMap Event.note?) ∧
          (p₁.events.filterMap Event.alarm?).Perm (p₂.events.filterMap Event.alarm?) ∧
          x₁.report.map Report.untimed = x₂.report.map Report.untimed) ∧
        ∀ t < config.threads, faults₁ t = faults₂ t → (view₁ s₁).2 t = (view₂ s₂).2 t →
          (∀ key, KeySpace.numberOf key % config.threads.toNat = t.toNat →
            (view₁ s₁).1 key = (view₂ s₂).1 key) →
          x₁.filled[t.toNat]? = x₂.filled[t.toNat]? ∧
          seenBy (.worker t) (firstPhase p₁.events) = seenBy (.worker t) (firstPhase p₂.events) ∧
          (x₁.mixed ≠ [] → x₂.mixed ≠ [] →
            x₁.ends[t.toNat]? = x₂.ends[t.toNat]? ∧
            seenBy (.worker t) p₁.events = seenBy (.worker t) p₂.events) := by
  intro p₁ p₂
  refine ⟨report_watch config schedule opts, ?_⟩
  obtain ⟨events₁, x₁, s₁', play₁, runs₁, answers₁⟩ :=
    host₁.exists_play (watch config schedule opts turns₁) s₁
  obtain ⟨events₂, x₂, s₂', play₂, runs₂, answers₂⟩ :=
    host₂.exists_play (watch config schedule opts turns₂) s₂
  simp only [p₁, p₂, play₁, play₂]
  refine ⟨x₁, x₂, rfl, rfl, ?_⟩
  -- without keys both runs are over before anything is done
  rcases watch_eq config schedule opts with ⟨x, idle, same⟩ | ⟨keys, parts, hkeys, hparts, same⟩
  · rw [same] at runs₁ runs₂
    obtain ⟨rfl, rfl⟩ := Script.runs_done_iff.1 runs₁
    obtain ⟨rfl, rfl⟩ := Script.runs_done_iff.1 runs₂
    obtain rfl : s₁' = s₁ := answers₁
    obtain rfl : s₂' = s₂ := answers₂
    refine ⟨fun _ views => ⟨fun _ => rfl, rfl, rfl, by rw [views], .refl _, .refl _, rfl⟩, ?_⟩
    intro t _ _ _ _
    exact ⟨rfl, rfl, fun _ _ => ⟨rfl, rfl⟩⟩
  · rw [same] at runs₁ runs₂
    have ran₁ := ran_of_runs runs₁
    have ran₂ := ran_of_runs runs₂
    have own₁ := (follows₁.answers start₁ answers₁).1
    have own₂ := (follows₂.answers start₂ answers₂).1
    have threads := (threads_of_new?_eq_ok hkeys).1
    have numbered : Numbered keys.threads parts := threads ▸ numbered_of_assignments hparts
    refine ⟨fun sameFaults sameViews => ?_, fun t member sameFaults states contents => ?_⟩
    · subst sameFaults
      obtain ⟨filled, ends, report, seen, views⟩ := ran_alike numbered ran₁ ran₂ own₁ own₂
        fun t _ => ⟨rfl, by rw [sameViews]⟩
      obtain ⟨notes, alarms⟩ := perm_notes_alarms (perm_of_seenBy_eq seen)
      exact ⟨seen, filled, ends, contents_eq_of_views views, notes, alarms, report⟩
    · rw [← threads] at member contents
      exact ran_alike_at numbered ran₁ ran₂ own₁ own₂ member sameFaults (view_eq states contents)

/-- Two backends, two orders of turns, and a third call of thread 1 that is
said to fail. -/
theorem interleaving_not_observable_two_backends :
    let config : Config := ⟨⟨100, 0, 0, 0, 0⟩, 4, 4, 4, 2⟩
    let schedule : Schedule := ⟨.replicate 100 .read⟩
    let faults : Faults Nat := fun t n _ =>
      if t = 1 ∧ n = 2 then .strike (.ok (.changed false)) (n + 1)
      else .pass fun answer => (.ok answer, n + 1)
    let p₁ := ((Host.ofTable Store.table 7 id).withFaults faults).play .goOn
      (watch config schedule ⟨8, 8, true⟩ .inOrder) (Store.ofBackend 4 .hashed, fun _ => 0)
    let p₂ := ((Host.ofTable Store.table 9 id).withFaults faults).play .goOn
      (watch config schedule ⟨8, 8, true⟩ ⟨[1, 0, 1], [0, 1]⟩)
      (Store.ofBackend 4 .ordered, fun _ => 0)
    ∃ x₁ x₂, p₁.result? = some x₁ ∧ p₂.result? = some x₂ ∧ x₁.filled = x₂.filled ∧
      ∀ who, seenBy who p₁.events = seenBy who p₂.events := by
  intro config schedule faults p₁ p₂
  have follows₁ := (Store.correct 7 id).follows_withFaults faults
  have follows₂ := (Store.correct 9 id).follows_withFaults faults
  obtain ⟨-, x₁, x₂, ends₁, ends₂, same, -⟩ :=
    interleaving_not_observable config schedule ⟨8, 8, true⟩ .inOrder
      ⟨[1, 0, 1], [0, 1]⟩ _ _ faults faults follows₁ follows₂
      (Store.ofBackend 4 .hashed, fun _ => 0) (Store.ofBackend 4 .ordered, fun _ => 0) rfl rfl
  obtain ⟨seen, filled, -⟩ := same rfl (by simp only [Store.contents_ofBackend])
  exact ⟨x₁, x₂, ends₁, ends₂, filled, seen⟩

end Run

end TableProbe
