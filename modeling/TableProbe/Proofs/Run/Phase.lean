import Mathlib.Data.List.Forall2
import TableProbe.Proofs.Histogram.Recorded
import TableProbe.Proofs.Run.Watch
import TableProbe.Proofs.Worker.Paired

/-!
# A phase seen by one worker

In each phase of a run the workers share one table, and each calls for its own
keys only.  So two phases in which some worker finds the same share of the
table, and in which the same goes wrong for it, are the same to that worker,
whatever the turns are and whatever goes wrong for others (`Run.phase_alike`).
-/

namespace TableProbe

open Histogram (ofLatencies)

/-! ## Recorded latencies of two runs -/

/-- Nothing is recorded in both runs, or equally many latencies. -/
def SameCount (a b : Option Histogram) : Prop :=
  a = none ∧ b = none ∨
    ∃ values values', a = some (ofLatencies values) ∧ b = some (ofLatencies values') ∧
      values.length = values'.length

namespace SameCount

variable {a b : Option Histogram}

theorem keptByRecord : Worker.KeptByRecord SameCount := by
  intro a b m n same
  rcases same with ⟨rfl, rfl⟩ | ⟨values, values', rfl, rfl, lengths⟩
  · exact .inl ⟨rfl, rfl⟩
  · refine .inr ⟨values ++ [m], values' ++ [n], ?_, ?_, ?_⟩
    · rw [Histogram.ofLatencies_concat, Option.map_some]
    · rw [Histogram.ofLatencies_concat, Option.map_some]
    · rw [List.length_append, List.length_append, lengths]
      rfl

theorem total_eq (same : SameCount a b) : a.map Histogram.total = b.map Histogram.total := by
  rcases same with ⟨rfl, rfl⟩ | ⟨values, values', rfl, rfl, lengths⟩
  · rfl
  · rw [Option.map_some, Option.map_some, Histogram.total_ofLatencies,
      Histogram.total_ofLatencies, lengths]

theorem symm (same : SameCount a b) : SameCount b a := by
  rcases same with ⟨rfl, rfl⟩ | ⟨values, values', rfl, rfl, lengths⟩
  · exact .inl ⟨rfl, rfl⟩
  · exact .inr ⟨values', values, rfl, rfl, lengths.symm⟩

theorem recorded {h : Histogram} (same : SameCount (some h) b) : h.Recorded := by
  rcases same with ⟨eq, -⟩ | ⟨values, _, eq, -, -⟩
  · cases eq
  · cases eq
    exact Histogram.recorded_ofLatencies values

end SameCount

namespace Run

variable {opts : RunOptions} {keys : KeySpace} {schedule : Schedule} {a : Assignment}

/-! ## Workers of both phases -/

/-- A worker of the first phase does the same whatever times are measured, and
all its calls are about keys of its own thread. -/
theorem filler_alike (member : a.thread < keys.threads) :
    Script.Alike (.worker a.thread) (keys.Owns (.worker a.thread)) Eq (filler opts keys a)
      (filler opts keys a) := by
  have paired := Worker.paired_fillFrom member a.filled.toNat 0
  have alike := paired (.ofSeed opts.valueSize a.thread) _ rfl
  apply alike.map
  intro x x' related
  rcases related with ⟨ends, -⟩
  generalize x.1 = r at ends ⊢
  generalize x'.1 = r' at ends ⊢
  cases ends with
  | ok _ => rfl
  | error e => rfl

/-- Two workers of the second phase ended alike: with the same window and, but
for the latencies, with the same result. -/
def MixedAlike (x x' : Except (Failure WorkError) (Option Histogram) × Window) : Prop :=
  Task.EndsAlike SameCount x.1 x'.1 ∧ x.2 = x'.2

/-- What a worker recorded has no effect on what it does.  So two workers that
differ in nothing else do the same in the second phase, and record equally many
latencies. -/
theorem paired_mix {thread : UInt64} (member : thread < keys.threads) (schedule : Schedule)
    (ops : UInt64) :
    Task.Paired (.worker thread) (keys.Owns (.worker thread)) (Worker.Peers SameCount keys thread)
      SameCount (mix schedule ops) (mix schedule ops) := by
  unfold mix
  apply Task.Paired.bind
    (Worker.paired_replay (Worker.owns_of_plan member) SameCount.keptByRecord schedule ops)
  intro _ _ _
  apply Task.Paired.bind .get
  intro w w' peers
  rcases peers with ⟨rfl, -, samples, rfl, related⟩
  apply Task.Paired.bind (.note _)
  intro _ _ _
  exact .pure related

/-- A worker of the second phase does the same whatever times are measured.  It
ends alike: with the same window, the same failure if there is one, and as many
latencies. -/
theorem watchedMixer_alike (member : a.thread < keys.threads) :
    Script.Alike (.worker a.thread) (keys.Owns (.worker a.thread)) MixedAlike
      (watchedMixer opts keys schedule a) (watchedMixer opts keys schedule a) := by
  unfold watchedMixer
  cases Checked.add a.thread keys.threads with
  | error c => exact .done ⟨.error _, rfl⟩
  | ok seed =>
    have none_yet : SameCount (if opts.latency then some Histogram.emptyLatency else none)
        (if opts.latency then some Histogram.emptyLatency else none) := by
      split
      · exact .inr ⟨[], [], rfl, rfl, rfl⟩
      · exact .inl ⟨rfl, rfl⟩
    -- both runs start from the same worker, and differ in what is recorded from then on
    have paired := paired_mix member schedule a.ops
    have alike :=
      paired (.ofThread a.thread a.filled keys (.ofSeed opts.valueSize seed) opts.latency) _
        ⟨rfl, rfl, _, rfl, none_yet⟩
    apply alike.map
    intro x x' related
    rcases related with ⟨ends, -, -, samples, same, -⟩
    refine ⟨ends, ?_⟩
    rw [same]

/-! ## Who works -/

/-- There is one assignment for each thread, in order. -/
structure Numbered (threads : UInt64) (parts : List Assignment) : Prop where
  length_eq : parts.length = threads.toNat
  toNat_thread : ∀ {i : Nat} {a}, parts[i]? = some a → a.thread.toNat = i

/-- The threads that work. -/
def actors (parts : List Assignment) : List Actor := parts.map fun a => .worker a.thread

theorem map_of_mapM_eq_ok {ε α β : Type} {f : α → Except ε β} {g : β → α}
    (inverse : ∀ a b, f a = .ok b → g b = a) {list : List α} {results : List β}
    (h : list.mapM f = .ok results) : results.map g = list := by
  induction list generalizing results with
  | nil =>
    injection h with h
    rw [← h]
    rfl
  | cons a list ih =>
    rw [List.mapM_cons] at h
    obtain ⟨b, hb, h⟩ := bind_eq_ok_iff.1 h
    obtain ⟨rest, hrest, h⟩ := bind_eq_ok_iff.1 h
    injection h with h
    rw [← h, List.map_cons, inverse a b hb, ih hrest]

theorem numbered_of_assignments {config : Config} {parts : List Assignment}
    (h : assignments config = .ok parts) : Numbered config.threads parts := by
  have threads : parts.map Assignment.thread = Partition.threadIds config.threads := by
    apply map_of_mapM_eq_ok _ h
    intro thread a ha
    obtain ⟨filled, -, ha⟩ := bind_eq_ok_iff.1 ha
    obtain ⟨ops, -, ha⟩ := bind_eq_ok_iff.1 ha
    injection ha with ha
    rw [← ha]
  have length_eq : parts.length = config.threads.toNat := by
    rw [← Partition.length_threadIds, ← threads, List.length_map]
  refine ⟨length_eq, fun {i a} ha => ?_⟩
  obtain ⟨bound, -⟩ := List.getElem?_eq_some_iff.1 ha
  have here := congrArg (fun list => list[i]?) threads
  simp only [Partition.threadIds, List.getElem?_map, ha, Option.map_some] at here
  rw [List.getElem?_range (length_eq ▸ bound), Option.map_some] at here
  injection here with here
  rw [here]
  exact UInt64.toNat_ofNat_of_lt' (Nat.lt_trans (length_eq ▸ bound) config.threads.toNat_lt_size)

theorem threads_of_new?_eq_ok {threads : UInt64} {size : Nat} {keys : KeySpace}
    (h : KeySpace.new? threads size = .ok keys) : keys.threads = threads ∧ keys.size = size := by
  unfold KeySpace.new? at h
  split at h
  · split at h
    · injection h with h
      rw [← h]
      exact ⟨rfl, rfl⟩
    · cases h
  · cases h

namespace Numbered

variable {threads : UInt64} {parts : List Assignment} {i : Nat}

theorem lt (numbered : Numbered threads parts) (h : parts[i]? = some a) : a.thread < threads := by
  obtain ⟨bound, -⟩ := List.getElem?_eq_some_iff.1 h
  rw [UInt64.lt_iff_toNat_lt, numbered.toNat_thread h, ← numbered.length_eq]
  exact bound

theorem exists_part (numbered : Numbered threads parts) {t : UInt64} (h : t < threads) :
    ∃ a, parts[t.toNat]? = some a ∧ a.thread = t := by
  rw [UInt64.lt_iff_toNat_lt, ← numbered.length_eq] at h
  have here : parts[t.toNat]? = some parts[t.toNat] := List.getElem?_eq_getElem h
  exact ⟨_, here, UInt64.toNat_inj.1 (numbered.toNat_thread here)⟩

theorem distinct (numbered : Numbered threads parts) : (actors parts).Nodup := by
  rw [List.nodup_iff_getElem?_ne_getElem?]
  intro i j lt bound same
  rw [actors, List.length_map] at bound
  rw [actors, List.getElem?_map, List.getElem?_map, List.getElem?_eq_getElem bound,
    List.getElem?_eq_getElem (Nat.lt_trans lt bound)] at same
  injection same with same
  injection same with same
  have first := numbered.toNat_thread (List.getElem?_eq_getElem (Nat.lt_trans lt bound))
  have second := numbered.toNat_thread (List.getElem?_eq_getElem bound)
  rw [same] at first
  omega

end Numbered

/-! ## One worker of a phase -/

section

variable {φ α : Type} {R : α → α → Prop} {faults faults' : Faults φ} {turns turns' : List Nat}
  {parts : List Assignment} {worker : Assignment → Script α} {events events' : List Event}
  {results results' : List α} {x y x' y' : Contents × (UInt64 → φ)} {t : UInt64}

theorem Numbered.actor (numbered : Numbered keys.threads parts) (member : t < keys.threads) :
    (actors parts)[t.toNat]? = some (.worker t) := by
  obtain ⟨a, ha, hthread⟩ := numbered.exists_part member
  rw [actors, List.getElem?_map, ha, Option.map_some, hthread]

/-- Workers that keep to their own keys are a team, since no thread is numbered
twice. -/
theorem Numbered.team (numbered : Numbered keys.threads parts)
    (owned : ∀ a, a.thread < keys.threads →
      (worker a).By (.worker a.thread) (keys.Owns (.worker a.thread))) :
    Script.Team keys.Owns (actors parts) (parts.map worker) where
  distinct := numbered.distinct
  length_eq := by rw [actors, List.length_map, List.length_map]
  owned {i who s} hwho hs := by
    rw [actors, List.getElem?_map] at hwho
    rw [List.getElem?_map] at hs
    obtain ⟨a, ha, rfl⟩ := Option.map_eq_some_iff.1 hwho
    rw [ha, Option.map_some] at hs
    injection hs with hs
    exact hs ▸ owned a (numbered.lt ha)

theorem part_eq (same : faults t = faults' t) :
    faults.part (.worker t) = faults'.part (.worker t) := by
  funext who call s
  cases s with
  | none => rfl
  | some s => simp only [Faults.part, Faults.answer, same]

/-- If workers are alike to themselves, then one of them cannot tell two ways
of interleaving them apart, as long as it finds the same in its part of the
table and the same goes wrong for it. -/
theorem phase_alike (numbered : Numbered keys.threads parts)
    (alike : ∀ a, a.thread < keys.threads →
      Script.Alike (.worker a.thread) (keys.Owns (.worker a.thread)) R (worker a) (worker a))
    (runs : (Script.interleave turns (parts.map worker)).Runs events results)
    (runs' : (Script.interleave turns' (parts.map worker)).Runs events' results')
    (answers : faults.machine.Answers events x y)
    (answers' : faults'.machine.Answers events' x' y') (member : t < keys.threads)
    (sameFaults : faults t = faults' t)
    (sameView : Faults.view keys (.worker t) x = Faults.view keys (.worker t) x') :
    seenBy (.worker t) events = seenBy (.worker t) events' ∧
      (∃ r r', results[t.toNat]? = some r ∧ results'[t.toNat]? = some r' ∧ R r r') ∧
      Faults.view keys (.worker t) y = Faults.view keys (.worker t) y' := by
  have team := numbered.team fun a ha => (alike a ha).by_left
  have woven := team.runs_of_interleave runs
  have woven' := team.runs_of_interleave runs'
  obtain ⟨a, ha, hthread⟩ := numbered.exists_part member
  have actor := numbered.actor member
  obtain ⟨bound, -⟩ := List.getElem?_eq_some_iff.1 actor
  have script : (parts.map worker)[t.toNat]? = some (worker a) := by
    rw [List.getElem?_map, ha, Option.map_some]
  have result := List.getElem?_eq_getElem (woven.length_eq ▸ bound)
  have result' := List.getElem?_eq_getElem (woven'.length_eq ▸ bound)
  have own := (faults.splits keys).answers (fun e he => (woven.mem e he).2) answers (.worker t)
  have own' := (faults'.splits keys).answers (fun e he => (woven'.mem e he).2) answers'
    (.worker t)
  rw [part_eq sameFaults, sameView] at own
  have here := alike a (numbered.lt ha)
  rw [hthread] at here
  obtain ⟨seen, related, states⟩ := here.runs (woven.runs actor script result)
    (woven'.runs actor script result') own own'
  exact ⟨seen, ⟨_, _, result, result', related⟩, states⟩

/-- If no worker can tell two ways of interleaving apart, then they are the
same but for times. -/
theorem phase_alike_all (numbered : Numbered keys.threads parts)
    (alike : ∀ a, a.thread < keys.threads →
      Script.Alike (.worker a.thread) (keys.Owns (.worker a.thread)) R (worker a) (worker a))
    (runs : (Script.interleave turns (parts.map worker)).Runs events results)
    (runs' : (Script.interleave turns' (parts.map worker)).Runs events' results')
    (answers : faults.machine.Answers events x y)
    (answers' : faults'.machine.Answers events' x' y')
    (same : ∀ t < keys.threads, faults t = faults' t ∧
      Faults.view keys (.worker t) x = Faults.view keys (.worker t) x') :
    (∀ who, seenBy who events = seenBy who events') ∧
      List.Forall₂ R results results' ∧
      ∀ t < keys.threads, Faults.view keys (.worker t) y = Faults.view keys (.worker t) y' := by
  have team := numbered.team fun a ha => (alike a ha).by_left
  have woven := team.runs_of_interleave runs
  have woven' := team.runs_of_interleave runs'
  have at_thread {t : UInt64} (member : t < keys.threads) :=
    phase_alike numbered alike runs runs' answers answers' member (same t member).1
      (same t member).2
  have index {i : Nat} (bound : i < (actors parts).length) :
      ∃ t : UInt64, t < keys.threads ∧ t.toNat = i ∧ (actors parts)[i]? = some (.worker t) := by
    rw [actors, List.length_map] at bound
    have ha := List.getElem?_eq_getElem bound
    refine ⟨_, numbered.lt ha, numbered.toNat_thread ha, ?_⟩
    rw [actors, List.getElem?_map, ha, Option.map_some]
  refine ⟨fun who => ?_, ?_, fun t member => (at_thread member).2.2⟩
  · by_cases works : who ∈ actors parts
    · obtain ⟨i, bound, rfl⟩ := List.getElem_of_mem works
      obtain ⟨t, member, -, actor⟩ := index bound
      rw [List.getElem?_eq_getElem bound] at actor
      injection actor with actor
      rw [actor]
      exact (at_thread member).1
    · have idle : seenBy who events = [] :=
        seenBy_eq_nil fun e he heq => works (heq ▸ (woven.mem e he).1)
      have idle' : seenBy who events' = [] :=
        seenBy_eq_nil fun e he heq => works (heq ▸ (woven'.mem e he).1)
      rw [idle, idle']
  · rw [List.forall₂_iff_get]
    refine ⟨woven.length_eq.trans woven'.length_eq.symm, fun i bound bound' => ?_⟩
    obtain ⟨t, member, rfl, -⟩ := index (woven.length_eq ▸ bound)
    obtain ⟨r, r', hr, hr', related⟩ := (at_thread member).2.1
    rw [List.getElem?_eq_getElem bound] at hr
    rw [List.getElem?_eq_getElem bound'] at hr'
    injection hr with hr
    injection hr' with hr'
    rw [List.get_eq_getElem, List.get_eq_getElem, hr, hr']
    exact related

end

end Run

end TableProbe
