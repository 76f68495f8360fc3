import TableProbe.Proofs.Table.Correct
import TableProbe.Proofs.Worker.InRange

/-!
# The one false alarm of a step

A single step can be asked for with any numbers, so it may come to an upsert
that overwrites the newest key.  If that key was erased, then a correct table
refuses, and the worker takes it for a mismatch.  This is the only way in which
a step goes wrong on a correct table (`Worker.step_misfires_iff`); every other
step leaves the worker as right about the table as it was.
-/

namespace TableProbe.Worker

section

variable {w w' : Worker} {op slot ops : UInt64} {kind : OpKind} {events : List Event}
  {probe : Probe} {r : Except (Failure WorkError) Unit} {c c' : Contents}

/-- The mismatch that is reported of an upsert that cannot overwrite the newest
key. -/
def misfire (w : Worker) (op : UInt64) : Mismatch where
  thread := w.thread
  kind := .upsert
  seq := w.window.inserted - 1
  op := op
  got := false
  expected := true

/-- An upsert that overwrites expects to find the newest key, so what it
reports is that the key was not found. -/
theorem mismatch_of_misfires (planned : Planned w op slot kind ops probe)
    (misfires : w.Misfires op slot kind) {got : Bool} (miss : got ≠ probe.expected) :
    w.mismatch op kind probe got = w.misfire op ∧ got = false := by
  have skips : ¬ w.Adds op slot kind := fun adds => not_misfires_of_adds adds misfires
  cases planned with
  | read hkind _ _ => cases hkind.symm.trans misfires.1
  | insert adds _ _ => exact absurd adds skips
  | erase hkind _ => cases hkind.symm.trans misfires.1
  | update hkind _ _ _ => cases hkind.symm.trans misfires.1
  | overwrite hkind _ _ _ =>
    obtain rfl : got = false := Bool.eq_false_iff.2 miss
    subst hkind
    exact ⟨rfl, rfl⟩

/-- How a step on a perfect table can end, and what is left of the worker and
of the contents. -/
inductive Settled (w : Worker) (op slot : UInt64) (kind : OpKind) (c : Contents) :
    List Event → Except (Failure WorkError) Unit → Worker → Contents → Prop
  | long : ¬ w.Short kind → Settled w op slot kind c [] (.error (.crash .lengthTooLarge)) w c
  | misfired {events : List Event} {w' : Worker} :
      w.Short kind → w.Misfires op slot kind → w'.window = w.window →
      Settled w op slot kind c events (.error (.error (.mismatch (w.misfire op)))) w' c
  | succeeded {events : List Event} {w' : Worker} {c' : Contents} :
      w.Short kind → ¬ w.Misfires op slot kind → w'.thread = w.thread → w'.keys = w.keys →
      w'.window.erased ≤ w'.window.inserted → w'.Knows c' →
        Settled w op slot kind c events (.ok ()) w' c'

/-- A worker that is right about a perfect table takes a step in one of three
ways. -/
theorem settled_of_stepped (knows : w.Knows c) (ordered : w.window.erased ≤ w.window.inserted)
    (room : w.window.inserted.toNat < 2 ^ 64 - 1) (some_ops : ops ≠ 0)
    (fits : w.keys.numberAt w.thread (w.seqOf op slot kind ops).toNat < 2 ^ 64)
    (stepped : Stepped w op slot kind ops events r w')
    (answers : Contents.machine.Answers events c c') :
    Settled w op slot kind c events r w' c' := by
  cases stepped with
  | unplanned plan =>
    obtain ⟨rfl, long⟩ := (hindered_of_plan plan).long some_ops fits
    cases answers
    exact .long long
  | refused _ refused =>
    cases answers.1.symm.trans refused
  | mismatched plan answered miss =>
    have planned := planned_of_plan plan
    cases answers.1.symm.trans answered
    have misfires : w.Misfires op slot kind := not_not.1 fun regular =>
      miss ((holds_eq_expected_iff knows ordered planned).2 regular)
    obtain ⟨reported, denied⟩ := mismatch_of_misfires planned misfires miss
    have same : c' = c := answers.2.trans (Contents.answer_of_not_holds denied)
    rw [reported, same]
    exact .misfired planned.short misfires rfl
  | overflown plan _ _ full =>
    have limit := (isInsert_of_overflow (planned_of_plan plan) full).2
    omega
  | disordered plan _ _ advance disorder =>
    exact absurd (ordered_advance (planned_of_plan plan) ordered advance) disorder
  | @advanced probe _ _ _ plan answered hit advance ordered' =>
    have planned := planned_of_plan plan
    cases answers.1.symm.trans answered
    obtain rfl : c' = (Contents.answer probe.call c).2 := answers.2
    have regular := (holds_eq_expected_iff knows ordered planned).1 hit
    have after := knows_advance knows ordered planned advance
    exact .succeeded planned.short regular rfl rfl ordered' after

end

/-- When a step goes wrong on a correct table.  Let the worker be right about
which of its keys are there, and let the key that the step concerns have a
number.  If that key, or the value to be written, is too long to exist, then
the worker crashes before anything is done.  Otherwise the step fails if and
only if it is an upsert that is to overwrite the newest key while all keys were
erased: this is reported as a mismatch, and neither the contents nor the
counters change.  After any other step the worker is right about the table
again. -/
theorem step_misfires_iff {σ : Type} (host : Host σ) (s : σ) {ready : σ → Prop}
    {contents : σ → Contents} (correct : host.Correct ready contents) (start : ready s)
    (w : Worker) (ordered : w.window.erased ≤ w.window.inserted)
    (room : w.window.inserted.toNat < 2 ^ 64 - 1) (knows : w.Knows (contents s))
    (op slot : UInt64) (kind : OpKind) (ops : UInt64) (some_ops : ops ≠ 0)
    (fits : w.keys.numberAt w.thread (w.seqOf op slot kind ops).toNat < 2 ^ 64) :
    let played := host.play .goOn ((step op slot kind ops).start w) s
    ∃ result w', played.result? = some (result, w') ∧
      (¬ w.Short kind → result = .error (.crash .lengthTooLarge) ∧ played.events = [] ∧ w' = w ∧
        played.state = s) ∧
      (w.Short kind →
        ((∃ f, result = .error f) ↔ w.Misfires op slot kind) ∧
        (w.Misfires op slot kind →
          result = .error (.error (.mismatch
              ⟨w.thread, .upsert, w.window.inserted - 1, op, false, true⟩)) ∧
            contents played.state = contents s ∧ w'.window = w.window) ∧
        (¬ w.Misfires op slot kind → result = .ok () ∧ w'.thread = w.thread ∧ w'.keys = w.keys ∧
          w'.window.erased ≤ w'.window.inserted ∧ ready played.state ∧
          w'.Knows (contents played.state))) := by
  intro played
  obtain ⟨events, ⟨result, w'⟩, s', play, runs, answers⟩ :=
    host.exists_play ((step op slot kind ops).start w) s
  have state_eq : played.state = s' := congrArg Performance.state play
  have events_eq : played.events = events := congrArg Performance.events play
  obtain ⟨own, stays⟩ := correct.follows_perfect.answers start answers
  refine ⟨result, w', congrArg Performance.result? play, ?_⟩
  rw [state_eq, events_eq]
  generalize after : contents s' = c' at own
  -- how the step ended tells which of the three cases this is
  cases settled_of_stepped knows ordered room some_ops fits (stepped_of_runs runs) own with
  | long long => exact ⟨fun _ => ⟨rfl, rfl, rfl, answers⟩, fun short => absurd short long⟩
  | misfired short misfires window =>
    exact ⟨fun long => absurd short long, fun _ => ⟨⟨fun _ => misfires, fun _ => ⟨_, rfl⟩⟩,
      fun _ => ⟨rfl, rfl, window⟩, fun regular => absurd misfires regular⟩⟩
  | succeeded short regular thread keys ordered' knows' =>
    refine ⟨fun long => absurd short long, fun _ =>
      ⟨⟨?_, fun misfires => absurd misfires regular⟩, fun misfires => absurd misfires regular,
        fun _ => ⟨rfl, thread, keys, ordered', stays, knows'⟩⟩⟩
    rintro ⟨f, failed⟩
    cases failed

/-- The newest of one inserted key was erased, and the operation is odd. -/
theorem step_misfires_iff_newest_erased :
    let w : Worker := ⟨0, ⟨1, 1⟩, ⟨1, 8, by decide, by decide⟩, .ofSeed 8 0, none⟩
    let played :=
      (Host.ofTable Contents.table 0 id).play .goOn ((step 1 0 .upsert 2).start w) .empty
    w.Knows .empty ∧ w.Misfires 1 0 .upsert ∧ ∃ result w', played.result? = some (result, w') ∧
      result =
        .error (.error (.mismatch ⟨w.thread, .upsert, w.window.inserted - 1, 1, false, true⟩)) ∧
      played.state = .empty := by
  intro w played
  have knows : w.Knows .empty := .of_empty w.keys 0 1
  have misfires : w.Misfires 1 0 .upsert := ⟨rfl, by decide, rfl, by decide⟩
  obtain ⟨result, w', ends, -, report⟩ :=
    step_misfires_iff (Host.ofTable Contents.table 0 id) .empty (Contents.correct 0 id) trivial w
      (by decide) (by decide) knows 1 0 .upsert 2 (by decide) (by decide)
  obtain ⟨failed, contents, -⟩ := (report ⟨by decide, fun _ => by decide⟩).2.1 misfires
  exact ⟨knows, misfires, result, w', ends, failed, contents⟩

/-- Not every other step succeeds: a value can be too long to exist. -/
theorem step_crashes_without_misfire :
    let w : Worker := ofThread 0 0 ⟨1, 8, by decide, by decide⟩ (.ofSeed (2 ^ 63) 0) false
    let played :=
      (Host.ofTable Contents.table 0 id).play .goOn ((step 0 0 .update 1).start w) .empty
    w.window.erased ≤ w.window.inserted ∧ w.window.inserted.toNat < 2 ^ 64 - 1 ∧
      w.thread < w.keys.threads ∧ w.Knows .empty ∧
      w.keys.numberAt w.thread (w.seqOf 0 0 .update 1).toNat < 2 ^ 64 ∧
      ¬ w.Misfires 0 0 .update ∧ played.result? = some (.error (.crash .lengthTooLarge), w) := by
  intro w played
  have regular : ¬ w.Misfires 0 0 .update := fun misfires => by cases misfires.1
  exact ⟨by decide, by decide, by decide, .of_empty w.keys 0 0, by decide, regular, by rfl⟩

end TableProbe.Worker
