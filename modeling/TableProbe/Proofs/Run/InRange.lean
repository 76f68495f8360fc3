import TableProbe.Proofs.Run.Assigned
import TableProbe.Proofs.Run.Failures
import TableProbe.Proofs.Worker.InRange

/-!
# Runs stay in range

If a run leaves room for the parts that the last thread takes on top of its
share, then all its keys and seeds have numbers, and no counter leaves the
range of a word, whatever the table answers (`Run.arithmetic_stays_in_range`).
Room does not keep two ends away: strings of bytes that are too long to exist,
and the last of 2 ^ 64 keys of a single thread, which is one more than its
counter can count (`Run.crashed_of_exhausted`).
-/

namespace TableProbe

open TableProbe.Partition (part)

/-- The host whose table agrees to everything and keeps nothing. -/
def Host.agreeable : Host Unit := .ofTable ⟨fun _ s => (.ok (.changed true), s)⟩ 0 id

namespace Run

variable {opts : RunOptions} {keys : KeySpace} {schedule : Schedule} {config : Config}
  {a : Assignment} {events : List Event} {c : Crash}

/-- A single thread comes to have all keys that have numbers, and counts one
more after the last of them. -/
structure Exhausted (config : Config) (schedule : Schedule) : Prop where
  alone : config.threads = 1
  full : config.prefillElems.toNat + config.totalOps.toNat = 2 ^ 64
  adds : ∀ k < config.totalOps.toNat, (schedule.kindAt k).adds = true

/-! ## Every worker by itself -/

/-- If its keys have numbers and no call crashes, then a worker of the first
phase can only crash over a key or a value that is too long. -/
theorem long_of_filler (covered : Covered keys a) (sound : ∀ e ∈ events, e.Sound)
    (runs : (filler opts keys a).Runs events (.error (.crash c))) :
    c.IsOfLength keys.size opts.valueSize := by
  obtain ⟨⟨r, values⟩, inner, same⟩ := Script.runs_map_iff.1 runs
  have zero : (0 : UInt64).toNat + a.filled.toNat = a.filled.toNat := Nat.zero_add _
  have bound : (0 : UInt64).toNat + a.filled.toNat < 2 ^ 64 := by
    rw [zero]
    exact a.filled.toNat_lt
  exact Worker.long_of_filling bound (fun i below => covered.fit i (by omega))
    (Worker.filling_of_runs inner) sound same.symm

/-- In the second phase a worker can also come to the end of its counter.  It
takes as many operations that add keys to get there as there are numbers left
above those filled in. -/
theorem crash_of_mixer (covered : Covered keys a) (sound : ∀ e ∈ events, e.Sound)
    (runs : (mixer opts keys schedule a).Runs events (.error (.crash c))) :
    c.IsOfLength keys.size opts.valueSize ∨
      c = .sumTooLarge ∧ 2 ^ 64 ≤ a.filled.toNat + Worker.addingOps schedule 0 a.ops.toNat := by
  obtain ⟨window, mixing⟩ := exists_mixing runs
  cases mixing with
  | seedless none =>
    obtain ⟨seed, hseed, -⟩ := Checked.exists_add_eq_ok covered.seed
    cases none.symm.trans hseed
  | @stopped seed _ _ _ _ stopped =>
    have reach :
        (Worker.ofThread a.thread a.filled keys
        (.ofSeed opts.valueSize seed) opts.latency).InReach a.ops a.ops.toNat :=
      ⟨covered.fit, fun i below => covered.fit i (by omega)⟩
    exact Worker.crash_of_steps reach UInt64.zero_le (Nat.le_of_eq (Nat.zero_add _)) stopped sound
      rfl

/-! ## The end of the counter -/

/-- A single thread does everything. -/
theorem partsOf_alone (alone : config.threads = 1) :
    partsOf config = [⟨0, config.prefillElems, config.totalOps⟩] := by
  have whole (n : UInt64) :
      UInt64.ofNat (part n.toNat (1 : UInt64).toNat (0 : UInt64).toNat) = n := by
    have all : part n.toNat 1 0 = n.toNat := by
      rw [part, if_pos rfl, Nat.div_one, Nat.mod_one, Nat.add_zero]
    exact (congrArg UInt64.ofNat all).trans UInt64.ofNat_toNat
  have first : Partition.threadIds 1 = [0] := rfl
  rw [partsOf, alone, first, List.map_singleton, assignmentOf, alone, whole, whole]

/-- Only a single thread can come to the end of its counter.  If there is a
second one, then the share of a thread times the number of threads, which the
room bounds, is too small for that. -/
theorem exhausted_of_full
    (room : config.prefillElems.toNat + config.totalOps.toNat +
      2 * (config.threads.toNat - 1) ^ 2 ≤ 2 ^ 64)
    (mem : a ∈ partsOf config)
    (full : 2 ^ 64 ≤ a.filled.toNat + Worker.addingOps schedule 0 a.ops.toNat) :
    Exhausted config schedule := by
  have adding : Worker.addingOps schedule 0 a.ops.toNat ≤ a.ops.toNat :=
    Nat.le_trans List.countP_le_length (Nat.le_of_eq List.length_range')
  have product := Nat.le_trans (product_le mem) room
  have alone : config.threads = 1 := by
    obtain ⟨thread, within, -⟩ := List.mem_map.1 mem
    have pos :=
      Nat.lt_of_le_of_lt (Nat.zero_le _)
        (UInt64.lt_iff_toNat_lt.1 (Partition.mem_threadIds.1 within))
    apply UInt64.toNat_inj.1
    apply Nat.le_antisymm _ pos
    apply Nat.le_of_mul_le_mul_left _ (Nat.two_pow_pos 64)
    exact Nat.le_trans (Nat.mul_le_mul_right _ (Nat.le_trans full (Nat.add_le_add_left adding _)))
      product
  rw [partsOf_alone alone, List.mem_singleton] at mem
  obtain rfl := mem
  dsimp only at full adding
  refine ⟨alone, by omega, fun k below => ?_⟩
  have every : Worker.addingOps schedule 0 config.totalOps.toNat =
      (List.range' 0 config.totalOps.toNat).length := by
    rw [List.length_range']
    omega
  exact List.countP_eq_length.1 every k (List.mem_range'_1.2 ⟨Nat.zero_le _, by omega⟩)

/-! ## A whole run -/

/-- What is left of a run in range: the main thread does not crash, and a
worker only over keys and values that are too long to exist, or at the end of
its counter. -/
structure InRange (config : Config) (schedule : Schedule) (opts : RunOptions) (x : Watched) :
    Prop where
  filled : ∀ c, .error (.crash c) ∈ x.filled → c.IsOfLength opts.keySize opts.valueSize
  mixed : ∀ c, .error (.crash c) ∈ x.mixed.map Prod.fst →
    c.IsOfLength opts.keySize opts.valueSize ∨ c = .sumTooLarge ∧ Exhausted config schedule
  workers : x.report = .error (.error .workerCrashed) →
    ¬ (opts.keySize < 2 ^ 63 ∧ opts.valueSize < 2 ^ 63) ∨ Exhausted config schedule
  main : ∀ c, x.report ≠ .error (.crash c)

variable {x : Watched}

theorem eq_crash_of_workerFailure {f : Failure WorkError}
    (h : workerFailure f = .error .workerCrashed) : ∃ c, f = .crash c := by
  cases f with
  | error e => cases h
  | crash c => exact ⟨c, rfl⟩

/-- A crash of a worker is never one of the main thread: what the run reports
of it is an error. -/
theorem workerFailure_ne_crash (f : Failure WorkError) : workerFailure f ≠ .crash c := by
  cases f with
  | error e => exact fun h => by cases h
  | crash c => exact fun h => by cases h

/-- The crashes of the workers are those of their scripts, which are known by
now; and the main thread reports them without crashing itself. -/
theorem inRange_of_contained
    (room : config.prefillElems.toNat + config.totalOps.toNat +
      2 * (config.threads.toNat - 1) ^ 2 ≤ 2 ^ 64)
    (threads : keys.threads = config.threads) (size : keys.size = opts.keySize)
    (sound : ∀ e ∈ events, e.Sound) (contained : Contained config opts keys schedule events x) :
    InRange config schedule opts x := by
  have sound_of {who : Actor} {phase : List Event} (sub : ∀ e ∈ phase, e ∈ events) :
      ∀ e ∈ eventsOf who phase, e.Sound :=
    fun e he => sound e (sub e (List.mem_of_mem_filter he))
  have filled : ∀ c, .error (.crash c) ∈ x.filled → c.IsOfLength opts.keySize opts.valueSize := by
    intro c crashed
    obtain ⟨a, mem, runs⟩ := contained.first.of_mem crashed
    rw [← size]
    apply long_of_filler (covered_of_room room threads mem) (sound_of fun e he => ?_) runs
    exact mem_of_mem_firstPhase he
  have mixed : (∀ r ∈ x.filled, r = .ok ()) → ∀ c, .error (.crash c) ∈ x.mixed.map Prod.fst →
      c.IsOfLength opts.keySize opts.valueSize ∨ c = .sumTooLarge ∧
          Exhausted config schedule := by
    intro all c crashed
    obtain ⟨a, mem, runs⟩ := (contained.second all).of_mem crashed
    rw [← size]
    apply (crash_of_mixer (covered_of_room room threads mem)
      (sound_of fun e he => ?_) runs).imp id
    · intro overflown
      exact ⟨overflown.1, exhausted_of_full room mem overflown.2⟩
    · exact mem_of_mem_secondPhase he
  rcases contained.ends with
    ⟨i, f, first, nothing, failed⟩ | ⟨all, ⟨i, f, first, failed⟩ | ⟨_, report, -, done⟩⟩
  · refine ⟨filled, fun c crashed => ?_, fun crashed => ?_, fun c crashed => ?_⟩
    · rw [nothing] at crashed
      cases crashed
    · rw [failed, Except.error.injEq] at crashed
      obtain ⟨c, rfl⟩ := eq_crash_of_workerFailure crashed
      exact .inl (filled c (List.mem_of_getElem? first.1)).2
    · rw [failed, Except.error.injEq] at crashed
      exact workerFailure_ne_crash f crashed
  · refine ⟨filled, mixed all, fun crashed => ?_, fun c crashed => ?_⟩
    · rw [failed, Except.error.injEq] at crashed
      obtain ⟨c, rfl⟩ := eq_crash_of_workerFailure crashed
      exact (mixed all c (List.mem_of_getElem? first.1)).imp And.right And.right
    · rw [failed, Except.error.injEq] at crashed
      exact workerFailure_ne_crash f crashed
  · refine ⟨filled, mixed all, fun crashed => ?_, fun c crashed => ?_⟩
    · cases done.symm.trans crashed
    · cases done.symm.trans crashed

/-! ## The end of the counter can be reached -/

/-- A worker that has to add one key more than it can count crashes, even if
the table takes all of them. -/
theorem crash_of_exhausted {r : Except (Failure WorkError) (Option Histogram)}
    (exhausted : Exhausted config schedule) (taken : ∀ e ∈ events, e.Taken)
    (runs : (mixer opts keys schedule ⟨0, config.prefillElems, config.totalOps⟩).Runs events r) :
    ∃ c, r = .error (.crash c) := by
  have adds : ∀ j < config.totalOps.toNat, (schedule.kindAt (0 + j)).adds = true := by
    intro j below
    rw [Nat.zero_add]
    exact exhausted.adds j below
  have full := exhausted.full
  have bound : 0 + config.totalOps.toNat ≤ 2 ^ 64 := by omega
  obtain ⟨window, mixing⟩ := exists_mixing runs
  cases mixing with
  | seedless _ => exact ⟨_, rfl⟩
  | stopped _ failed =>
    rcases Worker.crash_or_counted_of_steps adds bound failed taken with ⟨c, same⟩ | ⟨none, -⟩
    · cases same
      exact ⟨c, rfl⟩
    · cases none
  | @finished seed _ w _ done =>
    have taken_before := fun e he => taken e (List.mem_append_left _ he)
    rcases Worker.crash_or_counted_of_steps adds bound done taken_before with ⟨c, none⟩
      | ⟨-, counted⟩
    · cases none
    · -- all keys together are more than a counter can count
      have limit := w.window.inserted.toNat_lt
      have filled : (Worker.ofThread 0 config.prefillElems keys (.ofSeed opts.valueSize seed)
        opts.latency).window.inserted = config.prefillElems := rfl
      rw [filled] at counted
      omega

/-- So a run that exhausts its counter crashes against every table that takes
every key. -/
theorem crashed_of_exhausted {σ : Type} {host : Host σ} (turns : Turns) (s : σ)
    (takes : ∀ who key value s, (host.answer who (.insert key value) s).1.outcome =
      .ok (.changed true))
    (exhausted : Exhausted config schedule) (long : 8 ≤ opts.keySize) :
    (host.play .goOn (run config schedule opts turns).run s).result? =
      some (.error (.error .workerCrashed)) := by
  obtain ⟨events, x, s', play, runs, answers⟩ :=
    host.exists_play (watch config schedule opts turns) s
  have taken : ∀ e ∈ events, e.Taken := by
    intro e he key value reply inserts
    obtain ⟨mid, outcome⟩ := answers.outcome e he _ _ inserts
    exact outcome.trans (takes e.who key value mid)
  rw [play_run play]
  refine congrArg some ?_
  rcases contained_of_watch runs with ⟨e, none, -⟩ | ⟨keys, -, contained⟩
  · have some_threads : 0 < config.threads := by
      rw [exhausted.alone]
      decide
    obtain ⟨keys, hkeys⟩ := exists_new?_eq_ok some_threads long
    cases none.symm.trans hkeys
  · have filled : ∀ r ∈ x.filled, (∃ c, r = .error (.crash c)) ∨ r = .ok () := by
      intro r hr
      obtain ⟨a, -, runs⟩ := contained.first.of_mem hr
      obtain ⟨⟨r, values⟩, inner, rfl⟩ := Script.runs_map_iff.1 runs
      apply Worker.crash_or_ok_of_filling (Worker.filling_of_runs inner)
      exact fun e he => taken e (mem_of_mem_firstPhase (List.mem_of_mem_filter he))
    have mixed (all : ∀ r ∈ x.filled, r = .ok ()) :
        ∀ r ∈ x.mixed.map Prod.fst, ∃ c, r = .error (.crash c) := by
      intro r hr
      obtain ⟨a, mem, runs⟩ := (contained.second all).of_mem hr
      rw [partsOf_alone exhausted.alone, List.mem_singleton] at mem
      obtain rfl := mem
      apply crash_of_exhausted exhausted (fun e he => taken e ?_) runs
      exact mem_of_mem_secondPhase (List.mem_of_mem_filter he)
    rcases contained.ends with ⟨i, f, first, -, failed⟩
      | ⟨all, ⟨i, f, first, failed⟩ | ⟨list, _, done, -⟩⟩
    · rcases filled _ (List.mem_of_getElem? first.1) with ⟨c, crashed⟩ | ok
      · cases crashed
        exact failed
      · cases ok
    · obtain ⟨c, crashed⟩ := mixed all _ (List.mem_of_getElem? first.1)
      cases crashed
      exact failed
    · have count := (contained.second all).length_eq
      rw [partsOf_alone exhausted.alone, done, List.length_map] at count
      obtain ⟨samples, rfl⟩ := List.length_eq_one_iff.1 count
      obtain ⟨c, crashed⟩ := mixed all (.ok samples) (done ▸ List.mem_singleton_self _)
      cases crashed

/-! ## Room keeps arithmetic in range -/

/-- Arithmetic stays in range.  Whatever the schedule, the turns and the
answers are, as long as the table itself does not crash: if the keys to fill
in, the operations and twice the square of the number of other threads are at
most 2 ^ 64 together, then no worker of a run overflows a sum or a product or
divides by zero, and the main thread does not either.  A worker crashes only
over keys and values that are too long to exist, or, if it is the only one and
adds 2 ^ 64 keys in all, when it counts the last of them.  An alarm that ends
the program only cuts a run short.  There is such room for every configuration
that was derived from settings and has at most 2 ^ 30 threads. -/
theorem arithmetic_stays_in_range {σ : Type} (config : Config) (schedule : Schedule)
    (opts : RunOptions) (turns : Turns) (host : Host σ) (s : σ)
    (room : config.prefillElems.toNat + config.totalOps.toNat +
      2 * (config.threads.toNat - 1) ^ 2 ≤ 2 ^ 64)
    (sound : ∀ who call s c, (host.answer who call s).1.outcome ≠ .error (.crash c)) :
    let played := host.play .goOn (run config schedule opts turns).run s
    (∃ x, host.play .goOn (watch config schedule opts turns) s =
      ⟨some x, played.events, played.state⟩ ∧ played.result? = some x.report ∧
      InRange config schedule opts x) ∧
    (∀ policy, let stopped := host.play policy (run config schedule opts turns).run s
      stopped = played ∨ stopped.result? = none ∧ stopped.events <+: played.events) ∧
    ∀ settings other, Config.ofSettings settings = .ok other → other.threads.toNat ≤ 2 ^ 30 →
      0 < other.threads ∧
        other.prefillElems.toNat + other.totalOps.toNat + 2 * (other.threads.toNat - 1) ^ 2 <
            2 ^ 64 := by
  intro played
  obtain ⟨events, x, s', play, runs, answers⟩ :=
    host.exists_play (watch config schedule opts turns) s
  have same : played = ⟨some x.report, events, s'⟩ := by
    rw [← Option.map_some]
    exact play_run play
  have all_sound : ∀ e ∈ events, e.Sound := by
    intro e he call c micros crashed
    obtain ⟨mid, outcome⟩ := answers.outcome e he call _ crashed
    exact sound e.who call mid c outcome.symm
  refine ⟨⟨x, ?_, ?_, ?_⟩, fun policy => host.playAfter_cases policy _ [] s,
    fun settings other accepted few => ?_⟩
  · rw [same]
    exact play
  · rw [same]
  · rcases contained_of_watch runs with ⟨e, -, -, rfl⟩ | ⟨keys, hkeys, contained⟩
    · exact ⟨fun c crashed => (by cases crashed), fun c crashed => (by cases crashed),
        fun crashed => (by cases crashed), fun c crashed => (by cases crashed)⟩
    · obtain ⟨threads, size⟩ := threads_of_new?_eq_ok hkeys
      exact inRange_of_contained room threads size all_sound contained
  · exact ⟨(Config.bounds_of_ofSettings accepted).1, room_of_ofSettings accepted few⟩

/-- Three threads that leave no more room than they need, and a table that
agrees to everything. -/
theorem in_range_three_threads :
    let config : Config :=
      ⟨⟨20, 20, 20, 20, 20⟩, 0x8000000000000000, 0x7ffffffffffffff8, 0x8000000000000000, 3⟩
    let schedule : Schedule := ⟨.ofFn fun i => OpKind.all.getD (i.val % 5) .read⟩
    let opts : RunOptions := ⟨8, 8, true⟩
    config.prefillElems.toNat + config.totalOps.toNat + 2 * (config.threads.toNat - 1) ^ 2 =
        2 ^ 64 ∧
      ∃ x,
        (Host.agreeable.play .goOn (watch config schedule opts ⟨[2, 0], [1, 1, 0]⟩) ()).result? =
          some x ∧ InRange config schedule opts x := by
  intro config schedule opts
  obtain ⟨⟨x, play, -, inRange⟩, -⟩ :=
    arithmetic_stays_in_range config schedule opts ⟨[2, 0], [1, 1, 0]⟩ Host.agreeable ()
      (by decide) (fun _ _ _ _ crashed => by cases crashed)
  exact ⟨by decide, x, congrArg Performance.result? play, inRange⟩

/-- Room alone is not enough, even if the table agrees to everything: a key can
be too long to exist, and the last of all operations can find its counter full. -/
theorem crashed_with_room :
    let long : Config := ⟨⟨100, 0, 0, 0, 0⟩, 1, 1, 0, 1⟩
    let full : Config := ⟨⟨0, 100, 0, 0, 0⟩, 1, 1, 0xffffffffffffffff, 1⟩
    (∀ who call s c, (Host.agreeable.answer who call s).1.outcome ≠ .error (.crash c)) ∧
      (long.prefillElems.toNat + long.totalOps.toNat + 2 * (long.threads.toNat - 1) ^ 2 ≤ 2 ^ 64 ∧
        (Host.agreeable.play .goOn
          (run long ⟨.replicate 100 .read⟩ ⟨2 ^ 63, 8, false⟩ .inOrder).run ()).result? =
          some (.error (.error .workerCrashed))) ∧
      full.prefillElems.toNat + full.totalOps.toNat + 2 * (full.threads.toNat - 1) ^ 2 ≤ 2 ^ 64 ∧
        (Host.agreeable.play .goOn (run full ⟨.replicate 100 .insert⟩ ⟨8, 8, false⟩ .inOrder).run
          ()).result? = some (.error (.error .workerCrashed)) :=
  ⟨fun _ _ _ _ crashed => (by cases crashed), ⟨by decide, by rfl⟩, by decide,
    crashed_of_exhausted .inOrder () (fun _ _ _ _ => rfl) ⟨rfl, by decide, by decide⟩
      (Nat.le_refl 8)⟩

end Run

end TableProbe
