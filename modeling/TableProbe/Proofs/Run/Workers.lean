import TableProbe.Proofs.Run.Phase
import TableProbe.Proofs.Worker.Replay

/-!
# The workers of a phase

Whatever the turns are, every worker of a phase comes to its own end
(`Run.worked_of_runs`): its events are a way through its own script, and its
result is at its own place.  `Run.Mixing` lists the ways through the script of
a worker of the second phase.  Of several that failed, the one at the first
place is reported (`Run.join_eq_error_iff`).  `Run.Ran.split` puts this
together for a run of both phases.
-/

namespace TableProbe

namespace Run

/-! ## Results of all workers -/

section

variable {α : Type} {results : List (Except (Failure WorkError) α)}

/-- The result at a place is a failure, and there is none before it. -/
def FirstFailure (results : List (Except (Failure WorkError) α)) (i : Nat)
    (f : Failure WorkError) : Prop :=
  results[i]? = some (.error f) ∧ ∀ j < i, ∃ a, results[j]? = some (.ok a)

theorem firstFailure_cons_ok_iff {a : α} {i : Nat} {f : Failure WorkError} :
    FirstFailure (.ok a :: results) (i + 1) f ↔ FirstFailure results i f := by
  constructor
  · intro first
    rcases first with ⟨here, before⟩
    exact ⟨here, fun j below => before (j + 1) (Nat.succ_lt_succ below)⟩
  · intro first
    rcases first with ⟨here, before⟩
    refine ⟨here, fun j below => ?_⟩
    cases j with
    | zero => exact ⟨a, rfl⟩
    | succ j => exact before j (Nat.lt_of_succ_lt_succ below)

theorem join_cons_ok (a : α) : join (.ok a :: results) = (join results).map (a :: ·) := by
  unfold join
  rw [List.mapM_cons]
  cases results.mapM fun r => r.mapError workerFailure with
  | ok list => rfl
  | error e => rfl

/-- Either all workers succeeded, and their results are put together in order;
or one of them failed first, and its failure is reported. -/
theorem join_cases (results : List (Except (Failure WorkError) α)) :
    (∃ values : List α, results = values.map Except.ok ∧ join results = .ok values) ∨
      ∃ i f, FirstFailure results i f ∧ join results = .error (workerFailure f) := by
  induction results with
  | nil => exact .inl ⟨[], rfl, rfl⟩
  | cons r results ih =>
    cases r with
    | error f => exact .inr ⟨0, f, ⟨rfl, fun j below => by cases below⟩, rfl⟩
    | ok a =>
      rw [join_cons_ok]
      rcases ih with ⟨values, all, joined⟩ | ⟨i, f, first, joined⟩
      · exact .inl ⟨a :: values, by rw [all, List.map_cons], by rw [joined]; rfl⟩
      · exact .inr ⟨i + 1, f, firstFailure_cons_ok_iff.2 first, by rw [joined]; rfl⟩

theorem not_firstFailure_map_ok {values : List α} {i : Nat} {f : Failure WorkError} :
    ¬ FirstFailure (values.map Except.ok) i f := by
  intro first
  rcases first with ⟨here, -⟩
  rw [List.getElem?_map] at here
  obtain ⟨_, -, same⟩ := Option.map_eq_some_iff.1 here
  cases same

theorem FirstFailure.unique {i j : Nat} {f g : Failure WorkError}
    (first : FirstFailure results i f) (second : FirstFailure results j g) : f = g := by
  rcases Nat.lt_trichotomy i j with below | rfl | below
  · obtain ⟨a, here⟩ := second.2 i below
    rw [first.1] at here
    cases here
  · have here := first.1.symm.trans second.1
    cases here
    rfl
  · obtain ⟨a, here⟩ := first.2 j below
    rw [second.1] at here
    cases here

/-- The results of a phase are joined if all workers succeeded; they stay in
the order of the threads. -/
theorem join_eq_ok_iff {values : List α} :
    join results = .ok values ↔ results = values.map Except.ok := by
  rcases join_cases results with ⟨values', rfl, joined⟩ | ⟨i, f, first, joined⟩
  · rw [joined]
    constructor
    · intro same
      cases same
      rfl
    · intro same
      exact congrArg Except.ok (List.map_injective_iff.2 (fun _ _ h => Except.ok.inj h) same)
  · rw [joined]
    constructor
    · intro same
      cases same
    · intro all
      subst all
      exact absurd first not_firstFailure_map_ok

/-- Of several failures the one of the lowest thread is reported, whichever
came first in time. -/
theorem join_eq_error_iff {e : Failure RunError} :
    join results = .error e ↔ ∃ i f, FirstFailure results i f ∧ e = workerFailure f := by
  rcases join_cases results with ⟨values, rfl, joined⟩ | ⟨i, f, first, joined⟩
  · rw [joined]
    constructor
    · intro same
      cases same
    · intro failed
      rcases failed with ⟨i, f, first, -⟩
      exact absurd first not_firstFailure_map_ok
  · rw [joined]
    constructor
    · intro same
      cases same
      exact ⟨i, f, first, rfl⟩
    · intro failed
      rcases failed with ⟨j, g, second, rfl⟩
      rw [first.unique second]

end

/-! ## A worker of the second phase -/

section

variable {opts : RunOptions} {keys : KeySpace} {schedule : Schedule} {a : Assignment}
  {events : List Event}

/-- The ways in which a worker of the second phase can go: it has no seed for
its values, or it stops at a step that fails, or it does all its operations and
says so.  The window that it is left with is part of the result. -/
inductive Mixing (opts : RunOptions) (keys : KeySpace) (schedule : Schedule) (a : Assignment) :
    List Event → Except (Failure WorkError) (Option Histogram) × Window → Prop
  | seedless {c : Crash} :
      Checked.add a.thread keys.threads = .error c →
      Mixing opts keys schedule a [] (.error (.crash c), ⟨0, a.filled⟩)
  | stopped {seed : UInt64} {events : List Event} {f : Failure WorkError} {w : Worker} :
      Checked.add a.thread keys.threads = .ok seed →
      ((Worker.steps schedule a.ops 0 a.ops.toNat).start
        (.ofThread a.thread a.filled keys (.ofSeed opts.valueSize seed) opts.latency)).Runs events
          (.error f, w) →
      Mixing opts keys schedule a events (.error f, w.window)
  | finished {seed : UInt64} {events : List Event} {w : Worker} :
      Checked.add a.thread keys.threads = .ok seed →
      ((Worker.steps schedule a.ops 0 a.ops.toNat).start
        (.ofThread a.thread a.filled keys (.ofSeed opts.valueSize seed) opts.latency)).Runs events
          (.ok (), w) →
      Mixing opts keys schedule a
        (events ++ [⟨.worker w.thread, .note (.finished w.thread w.window), ()⟩])
        (.ok w.samples, w.window)

/-- Every run of a worker of the second phase is one of these ways. -/
theorem mixing_of_runs {x : Except (Failure WorkError) (Option Histogram) × Window}
    (runs : (watchedMixer opts keys schedule a).Runs events x) :
    Mixing opts keys schedule a events x := by
  unfold watchedMixer at runs
  cases hseed : Checked.add a.thread keys.threads with
  | error c =>
    rw [hseed] at runs
    obtain ⟨rfl, rfl⟩ := Script.runs_done_iff.1 runs
    exact .seedless hseed
  | ok seed =>
    rw [hseed] at runs
    obtain ⟨⟨r, w⟩, inner, rfl⟩ := Script.runs_map_iff.1 runs
    unfold mix at inner
    rw [Worker.replay_eq_steps] at inner
    rcases Task.runs_bind_iff.1 inner with ⟨f, rfl, failed⟩
      | ⟨_, mid, first, later, rfl, head, tail⟩
    · exact .stopped hseed failed
    · obtain ⟨_, last, rfl, finish⟩ := Script.runs_act_iff.1 tail
      obtain ⟨rfl, same⟩ := Script.runs_done_iff.1 finish
      cases same
      exact .finished hseed head

theorem exists_mixing {r : Except (Failure WorkError) (Option Histogram)}
    (runs : (mixer opts keys schedule a).Runs events r) :
    ∃ window, Mixing opts keys schedule a events (r, window) := by
  rw [mixer_eq] at runs
  obtain ⟨⟨r, window⟩, watched, rfl⟩ := Script.runs_map_iff.1 runs
  exact ⟨window, mixing_of_runs watched⟩

end

/-! ## Every worker comes to its own end -/

section

variable {α : Type} {keys : KeySpace} {parts : List Assignment} {worker : Assignment → Script α}
  {turns : List Nat} {events : List Event} {results : List α}

/-- The workers of a phase each went one way through their own scripts, with
these results. -/
structure Worked (parts : List Assignment) (worker : Assignment → Script α) (events : List Event)
    (results : List α) : Prop where
  length_eq : results.length = parts.length
  callers : ∀ e ∈ events, e.call? ≠ none → ∃ a ∈ parts, e.who = .worker a.thread
  runs : ∀ {i : Nat} {a r}, parts[i]? = some a → results[i]? = some r →
    (worker a).Runs (eventsOf (.worker a.thread) events) r

/-- However the workers take turns, each of them goes through its own script as
if it were alone.  Nothing else is done in the meantime, and no worker looks at
the clock. -/
theorem worked_of_runs (numbered : Numbered keys.threads parts)
    (owned : ∀ a, a.thread < keys.threads →
      (worker a).By (.worker a.thread) (keys.Owns (.worker a.thread)))
    (runs : (Script.interleave turns (parts.map worker)).Runs events results) :
    Worked parts worker events results ∧ ∀ e ∈ events, e.who ∈ actors parts ∧
      e.deed ≠ .clock := by
  -- each worker owns its thread, so together they are a team
  have woven := (numbered.team owned).runs_of_interleave runs
  refine ⟨⟨?_, fun e he _ => ?_, fun {i a r} ha hr => ?_⟩,
    fun e he => ⟨(woven.mem e he).1, fun looks => ?_⟩⟩
  · rw [woven.length_eq, actors, List.length_map]
  · obtain ⟨a, ha, who⟩ := List.mem_map.1 (woven.mem e he).1
    exact ⟨a, ha, who.symm⟩
  · have actor : (actors parts)[i]? = some (.worker a.thread) := by
      rw [actors, List.getElem?_map, ha, Option.map_some]
    have script : (parts.map worker)[i]? = some (worker a) := by
      rw [List.getElem?_map, ha, Option.map_some]
    exact woven.runs actor script hr
  · have within := (woven.mem e he).2
    rw [looks] at within
    exact within

/-- What the main thread does before and after a phase is not done by its
workers. -/
theorem Worked.within (worked : Worked parts worker events results) {before after : List Event}
    (main : ∀ e ∈ before ++ after, e.who = .main ∧ e.call? = none) :
    Worked parts worker (before ++ (events ++ after)) results where
  length_eq := worked.length_eq
  callers e he calls := by
    simp only [List.mem_append] at he main
    rcases he with he | he | he
    · exact absurd (main e (.inl he)).2 calls
    · exact worked.callers e he calls
    · exact absurd (main e (.inr he)).2 calls
  runs {i a r} ha hr := by
    have others : ∀ list, (∀ e ∈ list, e.who = .main) → eventsOf (.worker a.thread) list = [] :=
      fun list mine => eventsOf_eq_nil fun e he who => by cases (mine e he).symm.trans who
    rw [eventsOf_append, eventsOf_append,
      others before fun e he => (main e (List.mem_append_left _ he)).1,
      others after fun e he => (main e (List.mem_append_right _ he)).1, List.append_nil]
    exact worked.runs ha hr

/-- Every result is that of some worker. -/
theorem Worked.of_mem (worked : Worked parts worker events results) {r : α} (mem : r ∈ results) :
    ∃ a ∈ parts, (worker a).Runs (eventsOf (.worker a.thread) events) r := by
  obtain ⟨i, bound, rfl⟩ := List.getElem_of_mem mem
  have bound' := worked.length_eq ▸ bound
  exact ⟨_, List.getElem_mem bound',
    worked.runs (List.getElem?_eq_getElem bound') (List.getElem?_eq_getElem bound)⟩

/-- What holds of every way through the script of a worker holds of all
results. -/
theorem Worked.forall₂ (worked : Worked parts worker events results) {R : Assignment → α → Prop}
    (each : ∀ {a events r}, (worker a).Runs events r → R a r) : List.Forall₂ R parts results := by
  rw [List.forall₂_iff_get]
  refine ⟨worked.length_eq.symm, fun i bound bound' => ?_⟩
  have ha : parts[i]? = some parts[i] := List.getElem?_eq_getElem bound
  have hr : results[i]? = some results[i] := List.getElem?_eq_getElem bound'
  exact each (worked.runs ha hr)

theorem Worked.map {β : Type} (worked : Worked parts worker events results) (f : α → β) :
    Worked parts (fun a => f <$> worker a) events (results.map f) where
  length_eq := by rw [List.length_map, worked.length_eq]
  callers := worked.callers
  runs {i a r} ha hr := by
    rw [List.getElem?_map] at hr
    obtain ⟨r', hr', rfl⟩ := Option.map_eq_some_iff.1 hr
    exact Script.runs_map_iff.2 ⟨r', worked.runs ha hr', rfl⟩

/-! ## Both phases -/

variable {opts : RunOptions} {schedule : Schedule}

theorem worked_of_fills {filled : List (Except (Failure WorkError) Unit)}
    (numbered : Numbered keys.threads parts)
    (runs : (Script.interleave turns (parts.map (filler opts keys))).Runs events filled) :
    Worked parts (filler opts keys) events filled ∧ ∀ e ∈ events, e.who ∈ actors parts ∧
      e.deed ≠ .clock :=
  worked_of_runs numbered (fun _ member => (filler_alike member).by_left) runs

theorem worked_of_mixes {mixed : List (Except (Failure WorkError) (Option Histogram) × Window)}
    (numbered : Numbered keys.threads parts)
    (runs : (Script.interleave turns (parts.map (watchedMixer opts keys schedule))).Runs events
      mixed) :
    Worked parts (mixer opts keys schedule) events (mixed.map Prod.fst) := by
  obtain ⟨worked, -⟩ :=
    worked_of_runs numbered (fun _ member => (watchedMixer_alike member).by_left) runs
  rw [funext (mixer_eq opts keys schedule)]
  exact worked.map Prod.fst

/-- **Split a run at its phases.**  The first phase is always a way through the
scripts of the workers that fill the table.  If one of them failed, then
nothing comes after it; otherwise the second phase is a way through the scripts
of its workers, between what the main thread does before and after them. -/
theorem Ran.split {config : Config} {turns : Turns} {x : Watched}
    (numbered : Numbered keys.threads parts)
    (ran : Ran config schedule opts turns keys parts events x) :
    (∃ t, events = looked t :: (firstPhase events ++ secondPhase events)) ∧
      (Script.interleave turns.fill (parts.map (filler opts keys))).Runs (firstPhase events)
        x.filled ∧
      ((∃ e, join x.filled = .error e ∧ x.report = .error e ∧ x.mixed = [] ∧
          secondPhase events = []) ∨
        ∃ units t₁ t₂ t₃ mixes ending, join x.filled = .ok units ∧
          (Script.interleave turns.mix (parts.map (watchedMixer opts keys schedule))).Runs mixes
            x.mixed ∧
          Ended config t₁ t₂ t₃ (join (x.mixed.map Prod.fst)) ending x.report ∧
          secondPhase events =
            looked t₂ :: looked t₃ :: (announced parts ++ (mixes ++ ending))) := by
  cases ran with
  | @unfilled t₁ fills filled e fillRuns failed =>
    have none_looks : ∀ e ∈ fills, e.deed ≠ .clock :=
      fun e he => ((worked_of_fills numbered fillRuns).2 e he).2
    rw [(phases_of_unfilled none_looks).1, (phases_of_unfilled none_looks).2, List.append_nil]
    exact ⟨⟨t₁, rfl⟩, fillRuns, .inl ⟨e, failed, rfl, rfl, rfl⟩⟩
  | @mixed t₁ t₂ t₃ fills mixes ending filled units mixed report fillRuns joined mixRuns ended =>
    have none_looks : ∀ e ∈ fills, e.deed ≠ .clock :=
      fun e he => ((worked_of_fills numbered fillRuns).2 e he).2
    rw [(phases_of_mixed none_looks).1, (phases_of_mixed none_looks).2]
    exact ⟨⟨t₁, rfl⟩, fillRuns,
      .inr ⟨units, t₁, t₂, t₃, mixes, ending, joined, mixRuns, ended, rfl⟩⟩

end

end Run

end TableProbe
