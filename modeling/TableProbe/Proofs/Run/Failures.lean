import TableProbe.Proofs.Run.Latency
import TableProbe.Proofs.Run.NoFalseAlarm
import TableProbe.Proofs.Worker.Blame

/-!
# Failing workers

Any number of workers can fail in either phase of a run, each in its own way,
and their deeds can follow each other in any order.  What the run makes of it
does not depend on the order: every worker comes to its own end, the second
phase begins only if all could fill their parts, and the failure of the first
thread that failed is reported.  Each worker raises the alarm for itself, if at
all.
-/

namespace TableProbe

namespace Run

/-- A worker of the second phase got an answer that was not as planned. -/
def Surprised (opts : RunOptions) (keys : KeySpace) (schedule : Schedule) (a : Assignment)
    (events : List Event) : Prop :=
  ∃ seed, Checked.add a.thread keys.threads = .ok seed ∧
    Worker.Caught schedule a.ops 0 a.ops.toNat
      (.ofThread a.thread a.filled keys (.ofSeed opts.valueSize seed) opts.latency) events

variable {opts : RunOptions} {keys : KeySpace} {schedule : Schedule} {a : Assignment}
  {events : List Event}

/-! ## Every worker judged by itself -/

/-- A worker of the first phase expects every insert to take effect, so it
raises an alarm exactly over an insert that did not. -/
theorem judged_of_filler {r : Except (Failure WorkError) Unit}
    (runs : (filler opts keys a).Runs events r) :
    Worker.Judged (∃ e ∈ events, e.Denied) events r := by
  obtain ⟨⟨r, values⟩, inner, rfl⟩ := Script.runs_map_iff.1 runs
  exact Worker.judged_of_filling (Worker.filling_of_runs inner)

/-- A worker that has done its replay only says so. -/
theorem judged_of_finish {w w' : Worker} {r : Except (Failure WorkError) (Option Histogram)}
    (runs : ((do
      let w ← get
      Task.perform (.worker w.thread) (.note (.finished w.thread w.window))
      return w.samples : Task Worker (Option Histogram)).start w).Runs events (r, w')) :
    Worker.Judged False events r := by
  obtain ⟨_, last, rfl, done⟩ := Script.runs_act_iff.1 runs
  obtain ⟨rfl, same⟩ := Script.runs_done_iff.1 done
  cases same
  refine ⟨rfl, ⟨fun h => (by cases h), False.elim⟩, fun e he call f micros failing => ?_⟩
  obtain rfl := List.mem_singleton.1 he
  cases failing

/-- A worker of the second phase is judged by what it planned.  Its note at the
end is no alarm, and without a seed it does nothing. -/
theorem judged_of_mixer {r : Except (Failure WorkError) (Option Histogram)}
    (runs : (mixer opts keys schedule a).Runs events r) :
    Worker.Judged (Surprised opts keys schedule a events) events r := by
  unfold mixer at runs
  cases hseed : Checked.add a.thread keys.threads with
  | error c =>
    rw [hseed] at runs
    obtain ⟨rfl, rfl⟩ := Script.runs_done_iff.1 runs
    refine Worker.judged_nil (fun surprised => ?_) _ rfl
    rcases surprised with ⟨seed, computed, -⟩
    rw [hseed] at computed
    cases computed
  | ok seed =>
    rw [hseed] at runs
    obtain ⟨⟨r, w⟩, inner, rfl⟩ := Script.runs_map_iff.1 runs
    unfold mix at inner
    rw [Worker.replay_eq_steps] at inner
    refine (Worker.judged_of_steps judged_of_finish inner).congr
      ⟨fun caught => ⟨seed, hseed, caught⟩, ?_⟩
    intro surprised
    rcases surprised with ⟨seed', computed, caught⟩
    rw [hseed] at computed
    cases computed
    exact caught

/-! ## A whole run -/

/-- Every worker of a phase came to its own end, and is judged by its own
events. -/
structure Accounted {α : Type} (parts : List Assignment)
    (worker : Assignment → Script (Except (Failure WorkError) α))
    (surprised : Assignment → List Event → Prop) (events : List Event)
    (results : List (Except (Failure WorkError) α)) :
    Prop extends Worked parts worker events results where
  judged : ∀ {i : Nat} {a r}, parts[i]? = some a → results[i]? = some r →
    Worker.Judged (surprised a (eventsOf (.worker a.thread) events))
      (eventsOf (.worker a.thread) events) r

/-- What a run makes of the ends of its workers.  Without a second phase
nothing is done after the first. -/
structure Contained (config : Config) (opts : RunOptions) (keys : KeySpace) (schedule : Schedule)
    (events : List Event) (x : Watched) : Prop where
  first : Accounted (partsOf config) (filler opts keys) (fun _ own => ∃ e ∈ own, e.Denied)
    (firstPhase events) x.filled
  stopped : ∀ {i f}, FirstFailure x.filled i f →
    x.report = .error (workerFailure f) ∧ x.mixed = [] ∧ secondPhase events = []
  second : (∀ r ∈ x.filled, r = .ok ()) → Accounted (partsOf config) (mixer opts keys schedule)
    (Surprised opts keys schedule) (secondPhase events) (x.mixed.map Prod.fst)
  failed : (∀ r ∈ x.filled, r = .ok ()) → ∀ {i f}, FirstFailure (x.mixed.map Prod.fst) i f →
    x.report = .error (workerFailure f)
  reported : (∀ r ∈ x.filled, r = .ok ()) → ∀ {list}, x.mixed.map Prod.fst = list.map Except.ok →
    ∃ report, x.report = .ok report ∧ Histogram.mergeAll list = .ok report.latency

variable {config : Config} {turns : Turns} {x : Watched}

/-- If a worker failed, then not all succeeded. -/
theorem FirstFailure.not_all_ok {filled : List (Except (Failure WorkError) Unit)} {i : Nat}
    {f : Failure WorkError} (first : FirstFailure filled i f) : ¬ ∀ r ∈ filled, r = .ok () := by
  intro all
  cases all _ (List.mem_of_getElem? first.1)

/-- A second phase whose workers all succeeded is reported: merging their
latencies cannot fail, so nothing is left that could. -/
theorem report_of_ended {t₁ t₂ t₃ : Nat} {ending mixes : List Event}
    {mixed : List (Except (Failure WorkError) (Option Histogram) × Window)}
    {report : Except (Failure RunError) Report} {list : List (Option Histogram)}
    (worked : Worked (partsOf config) (mixer opts keys schedule) mixes (mixed.map Prod.fst))
    (all : mixed.map Prod.fst = list.map Except.ok)
    (ended : Ended config t₁ t₂ t₃ (join (mixed.map Prod.fst)) ending report) :
    ∃ r, report = .ok r ∧ Histogram.mergeAll list = .ok r.latency := by
  rw [all] at worked
  rw [join_eq_ok_iff.2 all] at ended
  obtain ⟨recorded, -⟩ := filterMap_of_records (records_of_worked worked)
  obtain ⟨m, merged, -⟩ := Histogram.exists_mergeAll recorded
  cases ended with
  | reported _ t₄ =>
    refine ⟨_, by rw [conclude, merged], merged⟩

/-- Each way in which a run can go is read as a statement about its workers.
In all of them every worker of a phase has come to its own end before anything
is made of the results. -/
theorem contained_of_ran (numbered : Numbered keys.threads (partsOf config))
    (ran : Ran config schedule opts turns keys (partsOf config) events x) :
    Contained config opts keys schedule events x := by
  obtain ⟨-, fillRuns, rest⟩ := ran.split numbered
  obtain ⟨worked, -⟩ := worked_of_fills numbered fillRuns
  have first : Accounted (partsOf config) (filler opts keys) (fun _ own => ∃ e ∈ own, e.Denied)
      (firstPhase events) x.filled :=
    ⟨worked, fun ha hr => judged_of_filler (worked.runs ha hr)⟩
  rcases rest with ⟨e, failed, reported, nothing, second⟩ |
    ⟨_, t₁, t₂, t₃, mixes, ending, joined, mixRuns, ended, second⟩
  · obtain ⟨i, f, failure, rfl⟩ := join_eq_error_iff.1 failed
    refine ⟨first, fun failure' => ?_, fun all => absurd all failure.not_all_ok,
      fun all => absurd all failure.not_all_ok, fun all => absurd all failure.not_all_ok⟩
    rw [← failure.unique failure']
    exact ⟨reported, nothing, second⟩
  · have main : ∀ e ∈ (looked t₂ :: looked t₃ :: announced (partsOf config)) ++ ending,
        e.who = .main ∧ e.call? = none := by
      intro e he
      simp only [List.cons_append, List.mem_cons, List.mem_append] at he
      rcases he with rfl | rfl | he | he
      · exact ⟨rfl, rfl⟩
      · exact ⟨rfl, rfl⟩
      · exact who_announced e he
      · exact ended.who_ending e he
    have worked' : Worked (partsOf config) (mixer opts keys schedule) (secondPhase events)
        (x.mixed.map Prod.fst) :=
      second ▸ (worked_of_mixes numbered mixRuns).within main
    refine ⟨first, fun failed => ?_,
      fun _ => ⟨worked', fun ha hr => judged_of_mixer (worked'.runs ha hr)⟩,
      fun _ i f failed => ?_, fun _ list all => report_of_ended worked' all ended⟩
    · rw [join_eq_ok_iff.1 joined] at failed
      exact absurd failed not_firstFailure_map_ok
    · rw [join_eq_error_iff.2 ⟨i, f, failed, rfl⟩] at ended
      generalize x.report = report at ended
      cases ended
      rfl

/-- A run ends with the first failure of its first phase, with the first one of
its second phase, or with a report. -/
theorem Contained.ends (contained : Contained config opts keys schedule events x) :
    (∃ i f, FirstFailure x.filled i f ∧ x.mixed = [] ∧ x.report = .error (workerFailure f)) ∨
      (∀ r ∈ x.filled, r = .ok ()) ∧
        ((∃ i f, FirstFailure (x.mixed.map Prod.fst) i f ∧ x.report = .error (workerFailure f)) ∨
          ∃ (list : List (Option Histogram)) (report : Report),
            x.mixed.map Prod.fst = list.map Except.ok ∧ x.report = .ok report) := by
  rcases join_cases x.filled with ⟨units, all, -⟩ | ⟨i, f, first, -⟩
  · have filled : ∀ r ∈ x.filled, r = .ok () := by
      intro r hr
      rw [all] at hr
      obtain ⟨_, -, rfl⟩ := List.mem_map.1 hr
      rfl
    refine .inr ⟨filled, ?_⟩
    rcases join_cases (x.mixed.map Prod.fst) with ⟨list, done, -⟩ | ⟨i, f, first, -⟩
    · obtain ⟨report, reported, -⟩ := contained.reported filled done
      exact .inr ⟨list, report, done, reported⟩
    · exact .inl ⟨i, f, first, contained.failed filled first⟩
  · obtain ⟨reported, nothing, -⟩ := contained.stopped first
    exact .inl ⟨i, f, first, nothing, reported⟩

/-- A run whose failures are contained has a report exactly if no worker
failed. -/
theorem Contained.ok_iff (contained : Contained config opts keys schedule events x) :
    (∃ report, x.report = .ok report) ↔
      (∀ r ∈ x.filled, r = .ok ()) ∧ ∀ r ∈ x.mixed, ∃ samples, r.1 = .ok samples := by
  rcases contained.ends with
    ⟨i, f, first, -, failed⟩ | ⟨filled, ⟨i, f, first, failed⟩ | ⟨list, report, all, done⟩⟩
  · constructor
    · intro succeeded
      rcases succeeded with ⟨report, reported⟩
      cases failed.symm.trans reported
    · intro succeeded
      exact absurd succeeded.1 first.not_all_ok
  · constructor
    · intro succeeded
      rcases succeeded with ⟨report, reported⟩
      cases failed.symm.trans reported
    · intro succeeded
      obtain ⟨r, hr, failure⟩ := List.mem_map.1 (List.mem_of_getElem? first.1)
      obtain ⟨samples, success⟩ := succeeded.2 r hr
      cases failure.symm.trans success
  · refine ⟨fun _ => ⟨filled, fun r hr => ?_⟩, fun _ => ⟨report, done⟩⟩
    have here : r.1 ∈ x.mixed.map Prod.fst := List.mem_map_of_mem hr
    rw [all] at here
    obtain ⟨samples, -, same⟩ := List.mem_map.1 here
    exact ⟨samples, same.symm⟩

/-- A run either has no keys and does nothing, or its failures are contained.
Keys are the only thing that can fail to be made: the work is always shared
out. -/
theorem contained_of_watch (runs : (watch config schedule opts turns).Runs events x) :
    (∃ e, KeySpace.new? config.threads opts.keySize = .error e ∧ events = [] ∧
        x = ⟨.error (.error (.keys e)), [], []⟩) ∨
      ∃ keys, KeySpace.new? config.threads opts.keySize = .ok keys ∧
        Contained config opts keys schedule events x := by
  unfold watch at runs
  cases hkeys : KeySpace.new? config.threads opts.keySize with
  | error e =>
    rw [hkeys] at runs
    obtain ⟨none, ends⟩ := Script.runs_done_iff.1 runs
    exact .inl ⟨e, rfl, none, ends⟩
  | ok keys =>
    have hparts := assignments_eq_ok config
    rw [hkeys, hparts] at runs
    have numbered := numbered_of_assignments hparts
    rw [← (threads_of_new?_eq_ok hkeys).1] at numbered
    exact .inr ⟨keys, rfl, contained_of_ran numbered (ran_of_runs runs)⟩

/-- Failures of workers are contained.  For every configuration, schedule and
table, whatever it answers and whoever is next, a run succeeds exactly if there
are keys of the wanted kind and no worker of either phase fails; without such
keys nothing is done.  Every worker of a phase comes to its own end, whether
others fail or not, and raises the alarm at most once: exactly if the table
gave it an answer that it should not have given.  If some worker of the first
phase fails, then nothing is done after that phase; and the failure that is
reported is that of the first thread that failed, a crash as a crash of the
worker.  If none fails, then what the workers of the second phase recorded is
put together in their order. -/
theorem failures_are_contained {σ : Type} (config : Config) (schedule : Schedule)
    (opts : RunOptions) (turns : Turns) (host : Host σ) (s : σ) :
    let played := host.play .goOn (run config schedule opts turns).run s
    ∃ x, host.play .goOn (watch config schedule opts turns) s =
      ⟨some x, played.events, played.state⟩ ∧ played.result? = some x.report ∧
      ((∃ report, x.report = .ok report) ↔
        (∃ keys, KeySpace.new? config.threads opts.keySize = .ok keys) ∧
          (∀ r ∈ x.filled, r = .ok ()) ∧ ∀ r ∈ x.mixed, ∃ samples, r.1 = .ok samples) ∧
      (∀ e, KeySpace.new? config.threads opts.keySize = .error e →
        x.report = .error (.error (.keys e)) ∧ played.events = []) ∧
      (∀ keys, KeySpace.new? config.threads opts.keySize = .ok keys →
        assignments config = .ok (partsOf config) ∧ Numbered config.threads (partsOf config) ∧
          Contained config opts keys schedule played.events x) ∧
      RunError.workerCrashed.message = "worker thread panicked" := by
  intro played
  obtain ⟨events, x, s', play, runs, -⟩ := host.exists_play (watch config schedule opts turns) s
  have same : played = ⟨some x.report, events, s'⟩ := by
    rw [← Option.map_some]
    exact play_run play
  rw [same]
  have hparts := assignments_eq_ok config
  rcases contained_of_watch runs with ⟨e, none, rfl, rfl⟩ | ⟨keys, hkeys, contained⟩
  · refine ⟨_, play, rfl, ⟨fun succeeded => ?_, fun succeeded => ?_⟩, fun e' failed => ?_,
      fun keys hkeys => ?_, rfl⟩
    · rcases succeeded with ⟨report, reported⟩
      cases reported
    · rcases succeeded with ⟨⟨keys, hkeys⟩, -⟩
      cases none.symm.trans hkeys
    · cases none.symm.trans failed
      exact ⟨rfl, rfl⟩
    · cases none.symm.trans hkeys
  · refine ⟨x, play, rfl, contained.ok_iff.trans ?_, fun e none => ?_, fun keys' hkeys' => ?_,
      rfl⟩
    · exact ⟨fun all => ⟨⟨keys, hkeys⟩, all⟩, fun all => all.2⟩
    · cases none.symm.trans hkeys
    · cases hkeys.symm.trans hkeys'
      exact ⟨hparts, numbered_of_assignments hparts, contained⟩

end Run

end TableProbe
