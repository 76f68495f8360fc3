import TableProbe.Proofs.Script.Runs
import TableProbe.Run

/-!
# Watching a run

The report of a run does not say how far each worker came.  `Run.watch` is a
run that also returns the results of all workers of both phases and the windows
that those of the second phase are left with; its report is that of the run
(`Run.report_watch`).  `Run.Ran` lists the ways in which it can go, and
`Run.phases_append` says how its events split into those of the two phases.
-/

namespace TableProbe

namespace Script

variable {α β : Type}

theorem map_act (f : α → β) (who : Actor) (deed : Deed) (rest : deed.Result → Script α) :
    f <$> act who deed rest = act who deed fun r => f <$> rest r := rfl

theorem sequence_map (f : α → β) (scripts : List (Script α)) :
    sequence (scripts.map (f <$> ·)) = List.map f <$> sequence scripts := by
  induction scripts with
  | nil => rfl
  | cons s scripts ih =>
    rw [List.map_cons, sequence, ih]
    simp only [sequence, map_eq_pure_bind, bind_assoc, pure_bind, List.map_cons]

theorem interleave_map (f : α → β) (turns : List Nat) (scripts : List (Script α)) :
    interleave turns (scripts.map (f <$> ·)) = List.map f <$> interleave turns scripts := by
  induction turns generalizing scripts with
  | nil => exact sequence_map f scripts
  | cons turn turns ih =>
    unfold interleave
    rw [List.getElem?_map]
    cases scripts[turn]? with
    | none => exact ih scripts
    | some s =>
      cases s with
      | done a => exact ih scripts
      | act who deed rest =>
        rw [map_act]
        refine congrArg (act who deed) (funext fun r => ?_)
        rw [← ih, List.map_set]
        rfl

end Script

namespace Run

/-- What there is to know of a run when it is over.  Without a second phase
nothing was mixed. -/
structure Watched where
  report : Except (Failure RunError) Report
  filled : List (Except (Failure WorkError) Unit)
  mixed : List (Except (Failure WorkError) (Option Histogram) × Window)

/-- A worker of the second phase; the window that it is left with is part of
the result. -/
def watchedMixer (opts : RunOptions) (keys : KeySpace) (schedule : Schedule) (a : Assignment) :
    Script (Except (Failure WorkError) (Option Histogram) × Window) :=
  match Checked.add a.thread keys.threads with
  | .error c => return (.error (.crash c), ⟨0, a.filled⟩)
  | .ok seed =>
    let values := ValueSource.ofSeed opts.valueSize seed
    (fun x => (x.1, x.2.window)) <$>
      (mix schedule a.ops).start (.ofThread a.thread a.filled keys values opts.latency)

/-- Notes what falls to each thread. -/
def announce (parts : List Assignment) : Script PUnit :=
  parts.forM fun a => Script.perform .main (.note (.started a.thread a.filled a.ops))

/-- The report of a run whose workers all succeeded, given what the clock
showed. -/
def conclude (config : Config) (latencies : List (Option Histogram)) (t₁ t₂ t₃ t₄ : Nat) :
    Except (Failure RunError) Report :=
  match Histogram.mergeAll latencies with
  | .error e => .error (.error (.merge e))
  | .ok latency => .ok
    { totalOps := config.totalOps
      elapsed := .ofNanos (t₄ - t₃)
      prefillElems := config.prefillElems
      prefillTime := .ofNanos (t₂ - t₁)
      latency }

/-- Both phases of a run. -/
def watchPhases (config : Config) (schedule : Schedule) (opts : RunOptions) (turns : Turns)
    (keys : KeySpace) (parts : List Assignment) : Script Watched := do
  let t₁ ← Script.perform .main .clock
  let filled ← Script.interleave turns.fill (parts.map (filler opts keys))
  match join filled with
  | .error e => return ⟨.error e, filled, []⟩
  | .ok _ =>
    let t₂ ← Script.perform .main .clock
    let t₃ ← Script.perform .main .clock
    announce parts
    let mixed ← Script.interleave turns.mix (parts.map (watchedMixer opts keys schedule))
    match join (mixed.map Prod.fst) with
    | .error e => return ⟨.error e, filled, mixed⟩
    | .ok latencies =>
      let t₄ ← Script.perform .main .clock
      return ⟨conclude config latencies t₁ t₂ t₃ t₄, filled, mixed⟩

/-- A run with all that there is to know of it. -/
def watch (config : Config) (schedule : Schedule) (opts : RunOptions) (turns : Turns) :
    Script Watched :=
  match KeySpace.new? config.threads opts.keySize with
  | .error e => return ⟨.error (.error (.keys e)), [], []⟩
  | .ok keys =>
    match assignments config with
    | .error c => return ⟨.error (.crash c), [], []⟩
    | .ok parts => watchPhases config schedule opts turns keys parts

/-- Either there are no phases, because the keys or the parts of the threads
cannot be had, or there are. -/
theorem watch_eq (config : Config) (schedule : Schedule) (opts : RunOptions) :
    (∃ x : Watched, x.mixed = [] ∧ ∀ turns, watch config schedule opts turns = .done x) ∨
      ∃ keys parts, KeySpace.new? config.threads opts.keySize = .ok keys ∧
        assignments config = .ok parts ∧
        ∀ turns, watch config schedule opts turns =
          watchPhases config schedule opts turns keys parts := by
  unfold watch
  cases KeySpace.new? config.threads opts.keySize with
  | error e => exact .inl ⟨_, rfl, fun _ => rfl⟩
  | ok keys =>
    cases assignments config with
    | error c => exact .inl ⟨_, rfl, fun _ => rfl⟩
    | ok parts => exact .inr ⟨keys, parts, rfl, rfl, fun _ => rfl⟩

/-! ## Watching changes nothing -/

/-- Without its window the watched worker is the one of the run, so what is
proved of the one holds of the other. -/
theorem mixer_eq (opts : RunOptions) (keys : KeySpace) (schedule : Schedule) (a : Assignment) :
    mixer opts keys schedule a = Prod.fst <$> watchedMixer opts keys schedule a := by
  unfold mixer watchedMixer
  cases Checked.add a.thread keys.threads with
  | error c => rfl
  | ok seed =>
    dsimp only
    rw [← comp_map]
    rfl

theorem run_announce (parts : List Assignment) :
    ExceptT.run (parts.forM fun a => note (.started a.thread a.filled a.ops)) =
      Except.ok <$> announce parts := by
  induction parts with
  | nil => rfl
  | cons a parts ih =>
    let first := Script.perform .main (.note (.started a.thread a.filled a.ops))
    have head := congrArg (fun later => first >>= fun _ => later) ih
    exact head

/-- With all but the report left out, the watched phases are the phases of the
run: the same deeds in the same order, and the same failures. -/
theorem report_watchPhases (config : Config) (schedule : Schedule) (opts : RunOptions)
    (turns : Turns) (keys : KeySpace) (parts : List Assignment) :
    Watched.report <$> watchPhases config schedule opts turns keys parts =
      ExceptT.run (do
        let (_, prefillTime) ← timed (fillPhase opts keys parts turns.fill)
        let (latencies, elapsed) ← timed (mixPhase opts keys schedule parts turns.mix)
        let latency ← compute .merge (Failure.ofError (Histogram.mergeAll latencies))
        return { totalOps := config.totalOps
                 elapsed
                 prefillElems := config.prefillElems
                 prefillTime
                 latency }) := by
  have mixers : parts.map (mixer opts keys schedule) =
      (parts.map (watchedMixer opts keys schedule)).map (Prod.fst <$> ·) := by
    rw [List.map_map]
    exact List.map_congr_left fun a _ => mixer_eq opts keys schedule a
  unfold watchPhases timed fillPhase mixPhase together clock
  rw [mixers, Script.interleave_map]
  simp only [bind_assoc, ExceptT.run_bind_lift, map_bind]
  refine bind_congr fun t₁ => ?_
  simp only [ExceptT.run_bind, ExceptT.run_mk, map_eq_pure_bind, bind_assoc, pure_bind]
  refine bind_congr fun filled => ?_
  cases join filled with
  | error e => rfl
  | ok units =>
    simp only [ExceptT.run_lift, run_announce, map_eq_pure_bind, bind_assoc, pure_bind]
    refine bind_congr fun t₂ => bind_congr fun t₃ => bind_congr fun _ => bind_congr fun mixed =>
      ?_
    cases join (mixed.map Prod.fst) with
    | error e => rfl
    | ok latencies =>
      simp only [bind_assoc, pure_bind]
      refine bind_congr fun t₄ => ?_
      unfold conclude
      cases Histogram.mergeAll latencies with
      | error e => rfl
      | ok latency => rfl

/-- The report of a watched run is the one of the run itself; to watch a run
does not change it. -/
theorem report_watch (config : Config) (schedule : Schedule) (opts : RunOptions) (turns : Turns) :
    Watched.report <$> watch config schedule opts turns =
      (run config schedule opts turns).run := by
  unfold watch run
  cases KeySpace.new? config.threads opts.keySize with
  | error e => rfl
  | ok keys =>
    cases assignments config with
    | error c => rfl
    | ok parts => exact report_watchPhases config schedule opts turns keys parts

/-- A run goes as the watched run does. -/
theorem play_run {σ : Type} {host : Host σ} {policy : AlarmPolicy} {config : Config}
    {schedule : Schedule} {opts : RunOptions} {turns : Turns} {s s' : σ} {result : Option Watched}
    {events : List Event}
    (play : host.play policy (watch config schedule opts turns) s = ⟨result, events, s'⟩) :
    host.play policy (run config schedule opts turns).run s =
      ⟨result.map Watched.report, events, s'⟩ := by
  rw [← report_watch, Host.play, host.playAfter_map]
  rw [Host.play] at play
  rw [play]

/-- What a run reports was watched: there is a way through the watched run with
this report, and its calls were answered by the host. -/
theorem exists_watched {σ : Type} {host : Host σ} {policy : AlarmPolicy} {config : Config}
    {schedule : Schedule} {opts : RunOptions} {turns : Turns} {s : σ}
    {report : Except (Failure RunError) Report}
    (reported : (host.play policy (run config schedule opts turns).run s).result? = some report) :
    ∃ events x s', (watch config schedule opts turns).Runs events x ∧ x.report = report ∧
      host.machine.Answers events s s' := by
  rw [← report_watch] at reported
  obtain ⟨events, -, answers, runs, -⟩ :=
    host.playAfter_spec policy (Watched.report <$> watch config schedule opts turns) [] s
  obtain ⟨x, watched, same⟩ := Script.runs_map_iff.1 (runs report reported)
  exact ⟨events, x, _, watched, same.symm, answers⟩

/-! ## The ways through a run -/

/-- The event that the main thread looks at the clock. -/
def looked (time : Nat) : Event := ⟨.main, .clock, time⟩

/-- The events by which it is noted what falls to each thread. -/
def announced (parts : List Assignment) : List Event :=
  parts.map fun a => ⟨.main, .note (.started a.thread a.filled a.ops), ()⟩

/-- How a run ends after both phases: it fails with a worker, or looks at the
clock and reports. -/
inductive Ended (config : Config) (t₁ t₂ t₃ : Nat) :
    Except (Failure RunError) (List (Option Histogram)) →
      List Event → Except (Failure RunError) Report → Prop
  | failed (e : Failure RunError) : Ended config t₁ t₂ t₃ (.error e) [] (.error e)
  | reported (latencies : List (Option Histogram)) (t₄ : Nat) :
      Ended config t₁ t₂ t₃ (.ok latencies) [looked t₄] (conclude config latencies t₁ t₂ t₃ t₄)

/-- The ways in which both phases of a run can go: what is done, and what is
known in the end. -/
inductive Ran (config : Config) (schedule : Schedule) (opts : RunOptions) (turns : Turns)
    (keys : KeySpace) (parts : List Assignment) : List Event → Watched → Prop
  | unfilled {t₁ : Nat} {fills : List Event} {filled : List (Except (Failure WorkError) Unit)}
      {e : Failure RunError} :
      (Script.interleave turns.fill (parts.map (filler opts keys))).Runs fills filled →
      join filled = .error e →
      Ran config schedule opts turns keys parts (looked t₁ :: fills) ⟨.error e, filled, []⟩
  | mixed {t₁ t₂ t₃ : Nat} {fills mixes ending : List Event}
      {filled : List (Except (Failure WorkError) Unit)} {units : List Unit}
      {mixed : List (Except (Failure WorkError) (Option Histogram) × Window)}
      {report : Except (Failure RunError) Report} :
      (Script.interleave turns.fill (parts.map (filler opts keys))).Runs fills filled →
      join filled = .ok units →
      (Script.interleave turns.mix (parts.map (watchedMixer opts keys schedule))).Runs mixes
        mixed →
      Ended config t₁ t₂ t₃ (join (mixed.map Prod.fst)) ending report →
      Ran config schedule opts turns keys parts
        (looked t₁ :: (fills ++ looked t₂ :: looked t₃ :: (announced parts ++ (mixes ++ ending))))
        ⟨report, filled, mixed⟩

theorem runs_announce_iff {parts : List Assignment} {events : List Event} {u : PUnit} :
    (announce parts).Runs events u ↔ events = announced parts := by
  induction parts generalizing events with
  | nil =>
    constructor
    · intro runs
      exact (Script.runs_done_iff.1 runs).1
    · intro same
      exact Script.runs_done_iff.2 ⟨same, rfl⟩
  | cons a parts ih =>
    constructor
    · intro runs
      obtain ⟨_, later, rfl, rest⟩ := Script.runs_perform_bind_iff.1 runs
      rw [ih.1 rest]
      rfl
    · intro same
      exact Script.runs_act_iff.2 ⟨(), announced parts, same, ih.2 rfl⟩

/-- Every run of both phases is one of these ways.  The script is followed from
one look at the clock to the next, and after each phase by whether all its
workers succeeded. -/
theorem ran_of_runs {config : Config} {schedule : Schedule} {opts : RunOptions} {turns : Turns}
    {keys : KeySpace} {parts : List Assignment} {events : List Event} {x : Watched}
    (runs : (watchPhases config schedule opts turns keys parts).Runs events x) :
    Ran config schedule opts turns keys parts events x := by
  unfold watchPhases at runs
  obtain ⟨t₁, _, rfl, fillPart⟩ := Script.runs_perform_bind_iff.1 runs
  obtain ⟨fills, filled, _, rfl, fillRuns, rest⟩ := Script.runs_bind_iff.1 fillPart
  -- the first phase decides whether there is a second one
  cases filledAll : join filled with
  | error e =>
    simp only [filledAll] at rest
    obtain ⟨rfl, rfl⟩ := Script.runs_done_iff.1 rest
    rw [List.append_nil]
    exact .unfilled fillRuns filledAll
  | ok units =>
    simp only [filledAll] at rest
    obtain ⟨t₂, _, rfl, rest₂⟩ := Script.runs_perform_bind_iff.1 rest
    obtain ⟨t₃, _, rfl, rest₃⟩ := Script.runs_perform_bind_iff.1 rest₂
    obtain ⟨notes, _, _, rfl, noteRuns, mixPart⟩ := Script.runs_bind_iff.1 rest₃
    obtain rfl := runs_announce_iff.1 noteRuns
    obtain ⟨mixes, mixed, _, rfl, mixRuns, ending⟩ := Script.runs_bind_iff.1 mixPart
    cases mixedAll : join (mixed.map Prod.fst) with
    | error e =>
      simp only [mixedAll] at ending
      obtain ⟨rfl, rfl⟩ := Script.runs_done_iff.1 ending
      exact .mixed fillRuns filledAll mixRuns (mixedAll ▸ .failed e)
    | ok latencies =>
      simp only [mixedAll] at ending
      obtain ⟨t₄, _, rfl, last⟩ := Script.runs_perform_bind_iff.1 ending
      obtain ⟨rfl, rfl⟩ := Script.runs_done_iff.1 last
      exact .mixed fillRuns filledAll mixRuns (mixedAll ▸ .reported latencies t₄)

/-! ## The events of each phase -/

/-- What is done in the first phase of a run: all until the main thread looks
at the clock again. -/
def firstPhase (events : List Event) : List Event :=
  (events.drop 1).takeWhile fun e => e.deed ≠ .clock

/-- What is done after the first phase of a run. -/
def secondPhase (events : List Event) : List Event :=
  (events.drop 1).dropWhile fun e => e.deed ≠ .clock

theorem mem_of_mem_firstPhase {e : Event} {events : List Event} (mem : e ∈ firstPhase events) :
    e ∈ events :=
  List.mem_of_mem_drop ((List.takeWhile_prefix _).subset mem)

theorem mem_of_mem_secondPhase {e : Event} {events : List Event} (mem : e ∈ secondPhase events) :
    e ∈ events :=
  List.mem_of_mem_drop ((List.dropWhile_suffix _).subset mem)

/-- The workers that fill the table do not look at the clock.  So a run that
goes on, if at all, with a look at it is split into what these workers do and
all that comes after them. -/
theorem phases_append {t : Nat} {fills later : List Event}
    (none_looks : ∀ e ∈ fills, e.deed ≠ .clock) (begins : ∀ e ∈ later.head?, e.deed = .clock) :
    firstPhase (looked t :: (fills ++ later)) = fills ∧
      secondPhase (looked t :: (fills ++ later)) = later := by
  have all : ∀ e ∈ fills, decide (e.deed ≠ .clock) = true :=
    fun e he => decide_eq_true (none_looks e he)
  have stops : later.takeWhile (fun e : Event => decide (e.deed ≠ .clock)) = [] := by
    cases later with
    | nil => rfl
    | cons e later =>
      exact List.takeWhile_cons_of_neg fun looks => of_decide_eq_true looks (begins e rfl)
  have first : firstPhase (looked t :: (fills ++ later)) = fills := by
    rw [firstPhase, List.drop_one, List.tail_cons, List.takeWhile_append_of_pos all, stops,
      List.append_nil]
  -- the two phases are all that comes after the first look, so one of them determines the other
  have whole : firstPhase (looked t :: (fills ++ later)) ++
      secondPhase (looked t :: (fills ++ later)) = fills ++ later :=
    List.takeWhile_append_dropWhile
  rw [first] at whole
  exact ⟨first, List.append_cancel_left whole⟩

/-- A run that is over after the first phase has nothing else. -/
theorem phases_of_unfilled {t : Nat} {fills : List Event}
    (none_looks : ∀ e ∈ fills, e.deed ≠ .clock) :
    firstPhase (looked t :: fills) = fills ∧ secondPhase (looked t :: fills) = [] := by
  have split : firstPhase (looked t :: (fills ++ [])) = fills ∧
      secondPhase (looked t :: (fills ++ [])) = [] :=
    phases_append none_looks nofun
  rwa [List.append_nil] at split

/-- A run that goes on has a second phase that begins with the look that ends
the first one. -/
theorem phases_of_mixed {t₁ t₂ : Nat} {fills later : List Event}
    (none_looks : ∀ e ∈ fills, e.deed ≠ .clock) :
    firstPhase (looked t₁ :: (fills ++ looked t₂ :: later)) = fills ∧
      secondPhase (looked t₁ :: (fills ++ looked t₂ :: later)) = looked t₂ :: later :=
  phases_append none_looks fun e here => by
    cases here
    rfl

end Run

end TableProbe
