import TableProbe.Proofs.Worker.Replay

/-!
# The loops of a replay

A replay is two nested loops: the outer one begins another round of the
schedule as long as operations are left, and the inner one goes from place to
place, and breaks off before an operation too many.  `Worker.Loop.Moves` is one
move of these loops and `Worker.Loop.Stops` is how they come to an end; nothing
in either bounds the number of rounds.  What is left to do at any point is a
plain sequence of steps (`Worker.Loop.left`), which one move begins
(`Worker.Loop.runs_of_moves`); so the loops do what that sequence does, and a
measure of the moves that are left shows that they always end
(`Worker.Loop.replay_is_flat_loop`).
-/

namespace TableProbe.Worker

theorem steps_of_lt {schedule : Schedule} {op ops : UInt64} (below : op < ops) :
    steps schedule ops op.toNat (ops.toNat - op.toNat) = (do
      step op (.ofNat (op.toNat % 100)) (schedule.kindAt op.toNat) ops
      steps schedule ops (op.toNat + 1) (ops.toNat - (op.toNat + 1))) := by
  rw [UInt64.lt_iff_toNat_lt] at below
  rw [show ops.toNat - op.toNat = ops.toNat - (op.toNat + 1) + 1 by omega, steps,
    UInt64.ofNat_toNat]

namespace Loop

/-- Where the loops are. -/
inductive Spot
  /-- The outer one is about to begin another round. -/
  | between
  /-- The inner one has these places of the schedule before it. -/
  | before (places : List (UInt64 × OpKind))

/-- What the loops are at: the number of the next operation, where they are,
and the worker. -/
structure Conf where
  op : UInt64
  spot : Spot
  worker : Worker

/-- One move of the loops, with what is done in it. -/
inductive Moves (schedule : Schedule) (ops : UInt64) : Conf → List Event → Conf → Prop
  | begin {op : UInt64} {w : Worker} :
    op < ops → Moves schedule ops ⟨op, .between, w⟩ [] ⟨op, .before schedule.places, w⟩
  | wrap {op : UInt64} {w : Worker} : Moves schedule ops ⟨op, .before [], w⟩ [] ⟨op, .between, w⟩
  | breakOff {op : UInt64} {place : UInt64 × OpKind} {places : List (UInt64 × OpKind)}
    {w : Worker} : op = ops →
    Moves schedule ops ⟨op, .before (place :: places), w⟩ [] ⟨op, .between, w⟩
  | step {op slot next : UInt64} {kind : OpKind} {places : List (UInt64 × OpKind)} {w w' : Worker}
    {events : List Event} :
    op ≠ ops → ((step op slot kind ops).start w).Runs events (.ok (), w') →
      Checked.add op 1 = .ok next →
    Moves schedule ops ⟨op, .before ((slot, kind) :: places), w⟩ events ⟨next, .before places, w'⟩

/-- The last thing that the loops do, and what they come to. -/
inductive Stops (ops : UInt64) :
    Conf → List Event → Except (Failure WorkError) Unit × Worker → Prop
  | finished {op : UInt64} {w : Worker} : ¬ op < ops → Stops ops ⟨op, .between, w⟩ [] (.ok (), w)
  | failed {op slot : UInt64} {kind : OpKind} {places : List (UInt64 × OpKind)} {w w' : Worker}
    {events : List Event} {e : Failure WorkError} :
    op ≠ ops → ((step op slot kind ops).start w).Runs events (.error e, w') →
    Stops ops ⟨op, .before ((slot, kind) :: places), w⟩ events (.error e, w')
  | overflown {op slot : UInt64} {kind : OpKind} {places : List (UInt64 × OpKind)} {w w' : Worker}
    {events : List Event} {c : Crash} :
    op ≠ ops → ((step op slot kind ops).start w).Runs events (.ok (), w') →
      Checked.add op 1 = .error c →
    Stops ops ⟨op, .before ((slot, kind) :: places), w⟩ events (.error (.crash c), w')

/-- One configuration comes after another one in so many moves, with what is
done in them. -/
inductive Reach (schedule : Schedule) (ops : UInt64) : Nat → Conf → List Event → Conf → Prop
  | refl {c : Conf} : Reach schedule ops 0 c [] c
  | head {n : Nat} {c c' c'' : Conf} {first later : List Event} :
    Moves schedule ops c first c' → Reach schedule ops n c' later c'' →
    Reach schedule ops (n + 1) c (first ++ later) c''

variable {schedule : Schedule} {ops op slot : UInt64} {kind : OpKind}
  {places : List (UInt64 × OpKind)} {w : Worker} {c c' : Conf} {events first later : List Event}
  {out : Except (Failure WorkError) Unit × Worker} {n : Nat}

/-! ## Where the loops can be -/

/-- The places that are left fit the number of the next operation. -/
def Spot.Fits (schedule : Schedule) (op ops : UInt64) : Spot → Prop
  | between => op = ops ∨ op.toNat % 100 = 0
  | before places =>
    places = schedule.places.drop (op.toNat % 100) ∨ places = [] ∧ op.toNat % 100 = 0

/-- The loops do not go beyond the last operation, and what they have before
them fits. -/
structure Valid (schedule : Schedule) (ops : UInt64) (c : Conf) : Prop where
  le : c.op ≤ ops
  fits : c.spot.Fits schedule c.op ops

theorem valid_start (schedule : Schedule) (ops : UInt64) (w : Worker) :
    Valid schedule ops ⟨0, .between, w⟩ :=
  ⟨UInt64.zero_le, .inr rfl⟩

theorem Valid.lt (valid : Valid schedule ops c) (more : c.op ≠ ops) : c.op < ops :=
  UInt64.lt_of_le_of_ne valid.le more

/-- The next place is the one of the next operation. -/
theorem Valid.next_place (valid : Valid schedule ops ⟨op, .before ((slot, kind) :: places), w⟩) :
    slot = .ofNat (op.toNat % 100) ∧ kind = schedule.kindAt op.toNat ∧
      places = schedule.places.drop (op.toNat % 100 + 1) := by
  rcases valid.fits with same | ⟨nothing, -⟩
  · rw [places_drop (Nat.mod_lt _ (by decide)), List.cons.injEq, Prod.mk.injEq] at same
    exact ⟨same.1.1, same.1.2, same.2⟩
  · cases nothing

theorem next_eq {next : UInt64} (sum : Checked.add op 1 = .ok next) : next.toNat = op.toNat + 1 :=
  Checked.add_eq_ok_iff.1 sum

theorem next_le {next : UInt64} (below : op < ops) (sum : Checked.add op 1 = .ok next) :
    next ≤ ops := by
  rw [UInt64.le_iff_toNat_le, next_eq sum]
  exact below

/-- The number of an operation can always be counted up. -/
theorem exists_next (below : op < ops) : ∃ next, Checked.add op 1 = .ok next := by
  rw [UInt64.lt_iff_toNat_lt] at below
  have bound := ops.toNat_lt_size
  obtain ⟨next, sum, -⟩ :=
    Checked.exists_add_eq_ok (show op.toNat + (1 : UInt64).toNat < UInt64.size by
    rw [UInt64.toNat_one]
    omega)
  exact ⟨next, sum⟩

/-- No move leaves the loops at a wrong place.  A round begins with an
operation whose number is a multiple of 100; each step takes away the first of
the places and counts one operation; and a round in which no place is left has
counted a whole hundred. -/
theorem valid_of_moves (valid : Valid schedule ops c) (moves : Moves schedule ops c events c') :
    Valid schedule ops c' := by
  have length : schedule.places.length = 100 := by simp [Schedule.places]
  cases moves with
  | @begin op w more =>
    refine ⟨valid.le, .inl ?_⟩
    rcases valid.fits with last | whole
    · exact absurd (last ▸ more) (UInt64.lt_irrefl ops)
    · rw [whole, List.drop_zero]
  | wrap =>
    refine ⟨valid.le, .inr ?_⟩
    rcases valid.fits with nothing | ⟨-, whole⟩
    · have := congrArg List.length nothing
      rw [List.length_nil, List.length_drop] at this
      omega
    · exact whole
  | breakOff last => exact ⟨valid.le, .inl last⟩
  | @step op slot next kind places w w' events more runs sum =>
    obtain ⟨-, -, rest⟩ := valid.next_place
    refine ⟨next_le (valid.lt more) sum, ?_⟩
    unfold Spot.Fits
    dsimp only
    rw [next_eq sum, rest]
    rcases Nat.lt_or_ge (op.toNat % 100 + 1) 100 with within | full
    · left
      rw [show (op.toNat + 1) % 100 = op.toNat % 100 + 1 by omega]
    · right
      exact ⟨List.drop_of_length_le (by omega), by omega⟩

/-! ## What is left to do -/

/-- What the loops have yet to do. -/
def left (schedule : Schedule) (ops : UInt64) (c : Conf) :
    Script (Except (Failure WorkError) Unit × Worker) :=
  (steps schedule ops c.op.toNat (ops.toNat - c.op.toNat)).start c.worker

/-- A move begins what is left to do.  All moves but steps do nothing and leave
just as much; a step is the first of the operations that are left. -/
theorem runs_of_moves (valid : Valid schedule ops c) (moves : Moves schedule ops c first c')
    (runs : (left schedule ops c').Runs later out) :
    (left schedule ops c).Runs (first ++ later) out := by
  cases moves with
  | begin more => exact runs
  | wrap => exact runs
  | breakOff last => exact runs
  | @step op slot next kind places w w' events more stepped sum =>
    obtain ⟨rfl, rfl, -⟩ := valid.next_place
    rw [left, next_eq sum] at runs
    rw [left, steps_of_lt (valid.lt more)]
    exact Task.runs_bind_iff.2 (.inr ⟨(), w', _, _, rfl, stepped, runs⟩)

/-- Where the loops stop, nothing else is left to do. -/
theorem runs_of_stops (valid : Valid schedule ops c) (stops : Stops ops c events out) :
    (left schedule ops c).Runs events out := by
  cases stops with
  | finished passed =>
    rw [UInt64.lt_iff_toNat_lt] at passed
    rw [left, Nat.sub_eq_zero_of_le (Nat.le_of_not_lt passed), steps]
    exact .done
  | @failed op slot kind places w w' events e more stepped =>
    obtain ⟨rfl, rfl, -⟩ := valid.next_place
    rw [left, steps_of_lt (valid.lt more)]
    exact Task.runs_bind_iff.2 (.inl ⟨e, rfl, stepped⟩)
  | overflown more stepped sum =>
    obtain ⟨next, sum'⟩ := exists_next (valid.lt more)
    rw [sum'] at sum
    cases sum

/-- Unless the loops stop, they move, in the way that what is left to do
begins.  By the spot where the loops are, and whether operations are left. -/
theorem stops_or_moves (valid : Valid schedule ops c)
    (runs : (left schedule ops c).Runs events out) :
    Stops ops c events out ∨ ∃ first later c', events = first ++ later ∧
      Moves schedule ops c first c' ∧
      (left schedule ops c').Runs later out := by
  rcases c with ⟨op, spot, w⟩
  rcases spot with _ | places
  · by_cases more : op < ops
    · exact .inr ⟨[], events, _, rfl, .begin more, runs⟩
    · have passed := more
      rw [UInt64.lt_iff_toNat_lt] at passed
      rw [left, Nat.sub_eq_zero_of_le (Nat.le_of_not_lt passed), steps] at runs
      obtain ⟨rfl, rfl⟩ := Script.runs_done_iff.1 runs
      exact .inl (.finished more)
  · rcases places with _ | ⟨⟨slot, kind⟩, places⟩
    · exact .inr ⟨[], events, _, rfl, .wrap, runs⟩
    · by_cases last : op = ops
      · exact .inr ⟨[], events, _, rfl, .breakOff last, runs⟩
      · obtain ⟨next, sum⟩ := exists_next (valid.lt last)
        obtain ⟨rfl, rfl, -⟩ := valid.next_place
        rcases out with ⟨r, w''⟩
        rw [left, steps_of_lt (valid.lt last)] at runs
        rcases Task.runs_bind_iff.1 runs with ⟨e, rfl, failed⟩
          | ⟨⟨⟩, w', first, later, rfl, stepped, rest⟩
        · exact .inl (.failed last failed)
        · refine .inr ⟨first, later, ⟨next, .before places, w'⟩, rfl, .step last stepped sum, ?_⟩
          rwa [left, next_eq sum]

/-! ## The loops end -/

/-- A bound on how many moves are left. -/
def work (ops : UInt64) (c : Conf) : Nat :=
  match c.spot with
  | .between => 3 * (ops.toNat - c.op.toNat)
  | .before [] => 3 * (ops.toNat - c.op.toNat) + 1
  | .before (_ :: _) => max 1 (3 * (ops.toNat - c.op.toNat) - 1)

theorem work_le (ops op : UInt64) (places : List (UInt64 × OpKind)) (w : Worker) :
    work ops ⟨op, .before places, w⟩ ≤ 3 * (ops.toNat - op.toNat) + 1 := by
  cases places with
  | nil => exact Nat.le_refl _
  | cons place places =>
    unfold work
    dsimp only
    omega

/-- Every move brings the measure down: a step since it counts an operation,
which is worth three moves, and all others since they only lead on to the next
spot. -/
theorem work_lt_of_moves (valid : Valid schedule ops c) (moves : Moves schedule ops c events c') :
    work ops c' < work ops c := by
  cases moves with
  | begin more =>
    have first : schedule.places = _ := places_drop (Nat.zero_lt_succ 99)
    rw [UInt64.lt_iff_toNat_lt] at more
    rw [first]
    unfold work
    dsimp only
    omega
  | wrap => exact Nat.lt_succ_self _
  | breakOff last =>
    rw [last]
    unfold work
    dsimp only
    omega
  | @step op slot next kind places w w' events more stepped sum =>
    have below : op.toNat < ops.toNat := valid.lt more
    have value := next_eq sum
    refine Nat.lt_of_le_of_lt (work_le ops next places w') ?_
    unfold work
    dsimp only
    omega

/-- However many moves are made, the loops stay where they can be, and as many
moves fewer are left to make. -/
theorem Reach.valid (reach : Reach schedule ops n c events c') (valid : Valid schedule ops c) :
    Valid schedule ops c' ∧ n + work ops c' ≤ work ops c := by
  induction reach with
  | refl => exact ⟨valid, Nat.le_of_eq (Nat.zero_add _)⟩
  | head moves _ ih =>
    obtain ⟨valid', bound⟩ := ih (valid_of_moves valid moves)
    have less := work_lt_of_moves valid moves
    exact ⟨valid', by omega⟩

/-- Moves and then what is left after them are a way to do all that was left
before.  By induction on the moves. -/
theorem runs_of_reach (valid : Valid schedule ops c) (reach : Reach schedule ops n c first c')
    (runs : (left schedule ops c').Runs later out) :
    (left schedule ops c).Runs (first ++ later) out := by
  induction reach with
  | refl => exact runs
  | head moves _ ih =>
    rw [List.append_assoc]
    exact runs_of_moves valid moves (ih (valid_of_moves valid moves) runs)

/-- The loops get to where they stop.  By induction on the measure, which every
move brings down; nothing else bounds how often they go round. -/
theorem exists_stops (valid : Valid schedule ops c)
    (runs : (left schedule ops c).Runs events out) :
    ∃ n first c' later, Reach schedule ops n c first c' ∧ Stops ops c' later out ∧
    events = first ++ later := by
  -- the moves that are left bound the induction; nothing in the moves themselves does
  obtain ⟨bound, le⟩ : ∃ bound, work ops c ≤ bound := ⟨_, Nat.le_refl _⟩
  induction bound generalizing c events with
  | zero =>
    rcases stops_or_moves valid runs with stops | ⟨first, later, c', -, moves, -⟩
    · exact ⟨0, [], c, events, .refl, stops, rfl⟩
    · have := work_lt_of_moves valid moves
      omega
  | succ bound ih =>
    rcases stops_or_moves valid runs with stops | ⟨first, later, c', rfl, moves, rest⟩
    · exact ⟨0, [], c, events, .refl, stops, rfl⟩
    · have less := work_lt_of_moves valid moves
      obtain ⟨n, second, c'', last, reach, stops, rfl⟩ :=
        ih (valid_of_moves valid moves) rest (by omega)
      exact ⟨n + 1, first ++ second, c'', last, .head moves reach, stops,
        (List.append_assoc ..).symm⟩

theorem left_start (schedule : Schedule) (ops : UInt64) (w : Worker) :
    left schedule ops ⟨0, .between, w⟩ = (replay schedule ops).start w := by
  rw [replay_eq_steps]
  rfl

/-- A replay does what its loops do until they stop. -/
theorem runs_replay_iff : ((replay schedule ops).start w).Runs events out ↔
    ∃ n first c later, Reach schedule ops n ⟨0, .between, w⟩ first c ∧ Stops ops c later out ∧
      events = first ++ later := by
  have valid := valid_start schedule ops w
  rw [← left_start]
  constructor
  · exact exists_stops valid
  · rintro ⟨n, first, c, later, reach, stops, rfl⟩
    exact runs_of_reach valid reach (runs_of_stops (reach.valid valid).1 stops)

/-- The loops of a replay do one step for each operation, in the order of their
numbers and with the slot that the number leaves modulo the length of the
schedule, and nothing else; the first step that fails ends them.  They end
whatever the calls are answered, after three moves for each operation at most.
The number of the next operation never exceeds the number of operations, so it
can always be counted up after a step, and no step is done if there are no
operations. -/
theorem replay_is_flat_loop (schedule : Schedule) (ops : UInt64) :
    (replay schedule ops = (List.range ops.toNat).forM fun k =>
      step (.ofNat k) (.ofNat (k % 100)) (schedule.kindAt k) ops) ∧
    ∀ w : Worker,
      (∀ events out, ((replay schedule ops).start w).Runs events out ↔
        ∃ n first c later, Reach schedule ops n ⟨0, .between, w⟩ first c ∧ Stops ops c later out ∧
          events = first ++ later) ∧
      (∀ (σ : Type) (host : Host σ) (s : σ), ∃ n first c later out s',
        Reach schedule ops n ⟨0, .between, w⟩ first c ∧ Stops ops c later out ∧
          host.play .goOn ((replay schedule ops).start w) s = ⟨some out, first ++ later, s'⟩) ∧
      ∀ n events c, Reach schedule ops n ⟨0, .between, w⟩ events c →
        n ≤ 3 * ops.toNat ∧ c.op ≤ ops ∧
        (∀ later w', Stops ops c later (.ok (), w') → c.op = ops) ∧
        ∀ slot kind places, c.spot = .before ((slot, kind) :: places) → c.op ≠ ops →
          ops ≠ 0 ∧ slot = .ofNat (c.op.toNat % 100) ∧ kind = schedule.kindAt c.op.toNat ∧
            ∃ next, Checked.add c.op 1 = .ok next ∧ next ≤ ops := by
  refine ⟨?flat, fun w => ?_⟩
  case flat => rw [replay_eq_steps, steps_eq_forM, List.range_eq_range']
  refine ⟨fun _ _ => runs_replay_iff, fun σ host s => ?ends, fun n events c reach => ?_⟩
  case ends =>
    obtain ⟨events, out, s', play, runs, -⟩ := host.exists_play ((replay schedule ops).start w) s
    obtain ⟨n, first, c, later, reach, stops, rfl⟩ := runs_replay_iff.1 runs
    exact ⟨n, first, c, later, out, s', reach, stops, play⟩
  obtain ⟨valid, bound⟩ := reach.valid (valid_start schedule ops w)
  refine ⟨Nat.le_trans (Nat.le_add_right ..) bound, valid.le, ?finished, ?place⟩
  case finished =>
    intro later w' stops
    cases stops with
    | finished passed => exact Decidable.byContradiction fun more => passed (valid.lt more)
  case place =>
    rcases c with ⟨op, spot, w'⟩
    rintro slot kind places rfl more
    obtain ⟨slot_eq, kind_eq, -⟩ := valid.next_place
    obtain ⟨next, sum⟩ := exists_next (valid.lt more)
    refine ⟨?_, slot_eq, kind_eq, next, sum, next_le (valid.lt more) sum⟩
    rintro rfl
    exact UInt64.not_lt_zero (valid.lt more)

end Loop

end TableProbe.Worker
