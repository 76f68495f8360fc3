import Mathlib.Data.List.Forall2
import TableProbe.Proofs.Worker.Expected

/-!
# A replay against a reference

The reference of a replay is what a perfect map does in it: which calls are
made, and which of them take effect.  It knows nothing of windows and
expectations.  A worker that replays the same schedule makes calls of the
reference only, in its order, and stops at the first answer that differs from
the reference, whatever table it calls (`Worker.followed_of_runs`).  So a
replay that succeeds has seen all the answers of a perfect map.
-/

namespace TableProbe

/-! ## The reference -/

/-- A perfect map in the course of a replay, how many keys were inserted into
it and how many of them erased, and the values to come. -/
structure Reference where
  map : Contents
  inserted : Nat
  erased : Nat
  values : ValueSource

namespace Reference

/-- One call of the reference, the place of its key, and whether it takes
effect. -/
structure Entry where
  seq : Nat
  call : Call
  holds : Bool

/-- The place that a read or an update of a replay looks at. -/
def target (ops : UInt64) (k : Nat) : Nat := (scatter (.ofNat k) (.ofNat (k % 100)) % ops).toNat

/-- The place of the key that an operation concerns. -/
def place (r : Reference) (kind : OpKind) (ops : UInt64) (k : Nat) : Nat :=
  match kind with
  | .read | .update => target ops k
  | .insert | .upsert => r.inserted
  | .erase => r.erased

/-- The call that an operation makes; values are taken in their order. -/
def call (r : Reference) (kind : OpKind) (key : Bytes) : Call :=
  match kind with
  | .read => .read key
  | .update => .update key (r.values.generator.bytes r.values.size).1
  | .insert | .upsert => .insert key (r.values.generator.bytes r.values.size).1
  | .erase => .erase key

/-- The reference after a call that did or did not take effect. -/
def after (r : Reference) (call : Call) (holds : Bool) : Reference where
  map := (Contents.answer call r.map).2
  inserted := if call.isInsert then r.inserted + 1 else r.inserted
  erased :=
    match call, holds with
    | .erase _, true => r.erased + 1
    | _, _ => r.erased
  values :=
    match call with
    | .insert .. | .update .. =>
      { r.values with generator := (r.values.generator.bytes r.values.size).2 }
    | _ => r.values

/-- What operation number `k` of a replay is. -/
def entry (r : Reference) (space : KeySpace) (thread : UInt64) (schedule : Schedule)
    (ops : UInt64) (k : Nat) : Entry :=
  let seq := r.place (schedule.kindAt k) ops k
  let call := r.call (schedule.kindAt k) (space.keyAt thread seq)
  ⟨seq, call, (Contents.answer call r.map).1.holds⟩

/-- The operations of a replay from number `k` on, `n` of them. -/
def trace (space : KeySpace) (thread : UInt64) (schedule : Schedule) (ops : UInt64) :
    Nat → Nat → Reference → List Entry
  | _, 0, _ => []
  | k, n + 1, r =>
    let e := r.entry space thread schedule ops k
    e :: trace space thread schedule ops (k + 1) n (r.after e.call e.holds)

theorem length_trace (space : KeySpace) (thread : UInt64) (schedule : Schedule) (ops : UInt64)
    (k n : Nat) (r : Reference) : (trace space thread schedule ops k n r).length = n := by
  induction n generalizing k r with
  | zero => rfl
  | succ n ih => exact congrArg Nat.succ (ih (k + 1) _)

/-- The call was made as the reference has it, and was answered so. -/
def Agrees (answered : Call × Reply) (e : Entry) : Prop :=
  answered.1 = e.call ∧ ∃ answer, answered.2.outcome = .ok answer ∧ answer.holds = e.holds

/-! ## Workers keep track of the reference -/

/-- The worker knows what the reference knows. -/
structure Tracks (r : Reference) (w : Worker) : Prop where
  describes : w.window.Describes r.map w.keys w.thread
  inserted : w.window.inserted.toNat = r.inserted
  erased : w.window.erased.toNat = r.erased
  values : w.values = r.values

variable {r : Reference} {w : Worker} {schedule : Schedule} {ops : UInt64} {k : Nat}
  {probe : Probe}

/-- As long as the worker knows what the reference knows, it plans the very
call that the reference has. -/
theorem call_entry (tracks : r.Tracks w) (bound : k < 2 ^ 64)
    (planned : Worker.Planned w (.ofNat k) (.ofNat (k % 100)) (schedule.kindAt k) ops probe) :
    (r.entry w.keys w.thread schedule ops k).call = probe.call := by
  cases planned with
  | read hkind hseq hkey =>
    obtain ⟨-, -, rfl⟩ := w.keys.key_eq_ok_iff.1 hkey
    obtain ⟨-, rfl⟩ := Checked.rem_eq_ok_iff.1 hseq
    simp only [entry, hkind]
    rfl
  | insert adds hkey hvalue =>
    obtain ⟨-, -, rfl⟩ := w.keys.key_eq_ok_iff.1 hkey
    obtain ⟨-, rfl, -⟩ := ValueSource.next_eq_ok_iff.1 hvalue
    rcases adds with hkind | ⟨hkind, -⟩
    · simp only [entry, hkind, place, call, tracks.inserted, tracks.values]
    · simp only [entry, hkind, place, call, tracks.inserted, tracks.values]
  | erase hkind hkey =>
    obtain ⟨-, -, rfl⟩ := w.keys.key_eq_ok_iff.1 hkey
    simp only [entry, hkind, place, call, tracks.erased]
  | update hkind hseq hkey hvalue =>
    obtain ⟨-, -, rfl⟩ := w.keys.key_eq_ok_iff.1 hkey
    obtain ⟨-, rfl⟩ := Checked.rem_eq_ok_iff.1 hseq
    obtain ⟨-, rfl, -⟩ := ValueSource.next_eq_ok_iff.1 hvalue
    simp only [entry, hkind, place, call, target, tracks.values]
  | overwrite hkind skips _ _ => exact absurd (Worker.adds_of_upsert bound hkind) skips

/-- What a worker plans in a replay is what the reference does: the answer that
the worker expects is the one that a perfect map gives. -/
theorem holds_entry (tracks : r.Tracks w) (bound : k < 2 ^ 64)
    (planned : Worker.Planned w (.ofNat k) (.ofNat (k % 100)) (schedule.kindAt k) ops probe) :
    (r.entry w.keys w.thread schedule ops k).holds = probe.expected := by
  have same : (r.entry w.keys w.thread schedule ops k).holds =
      (Contents.answer (r.entry w.keys w.thread schedule ops k).call r.map).1.holds := rfl
  rw [same, call_entry tracks bound planned]
  exact Worker.holds_eq_expected tracks.describes planned (Worker.adds_of_upsert bound)

/-- An answer as expected moves worker and reference on alike: with the same
key added or removed, and the same value used up. -/
theorem Tracks.after (tracks : r.Tracks w) {op slot : UInt64} {kind : OpKind} (reply : Reply)
    (planned : Worker.Planned w op slot kind ops probe) {window : Window}
    (advance : w.window.advance probe.move = .ok window) :
    (r.after probe.call probe.expected).Tracks { w.answered probe reply with window } := by
  have describes := Worker.describes_advance tracks.describes planned advance
  rcases tracks with ⟨-, inserted, erased, values⟩
  cases planned with
  | read _ _ _ =>
    injection advance with same
    subst same
    exact ⟨describes, inserted, erased, values⟩
  | insert _ _ hvalue =>
    obtain ⟨-, -, rfl⟩ := ValueSource.next_eq_ok_iff.1 hvalue
    obtain ⟨n, hn, rfl⟩ := Window.advance_eq_ok_iff.1 advance
    exact ⟨describes, hn.trans (congrArg Nat.succ inserted), erased, by rw [values]; rfl⟩
  | erase _ _ =>
    by_cases left : w.window.erased < w.window.inserted
    · simp only [left, if_true, decide_true] at advance describes ⊢
      obtain ⟨n, hn, rfl⟩ := Window.advance_eq_ok_iff.1 advance
      exact ⟨describes, inserted, hn.trans (congrArg Nat.succ erased), values⟩
    · simp only [left, if_false, decide_false] at advance describes ⊢
      injection advance with same
      subst same
      exact ⟨describes, inserted, erased, values⟩
  | update _ _ _ hvalue =>
    obtain ⟨-, -, rfl⟩ := ValueSource.next_eq_ok_iff.1 hvalue
    injection advance with same
    subst same
    exact ⟨describes, inserted, erased, by rw [values]; rfl⟩
  | overwrite _ _ _ hvalue =>
    obtain ⟨-, -, rfl⟩ := ValueSource.next_eq_ok_iff.1 hvalue
    injection advance with same
    subst same
    exact ⟨describes, inserted, erased, by rw [values]; rfl⟩

/-- Worker and reference are about the same place: their counters agree, and
all else is decided by the number of the operation. -/
theorem toNat_seqOf (tracks : r.Tracks w) (bound : k < 2 ^ 64) :
    (w.seqOf (.ofNat k) (.ofNat (k % 100)) (schedule.kindAt k) ops).toNat =
      r.place (schedule.kindAt k) ops k := by
  cases hkind : schedule.kindAt k with
  | read => rfl
  | insert => exact tracks.inserted
  | erase => exact tracks.erased
  | update => rfl
  | upsert =>
    have even : scatter (.ofNat k) (.ofNat (k % 100)) % 2 = 0 := Worker.scatter_even bound
    rw [Worker.seqOf, if_pos (.inr even)]
    exact tracks.inserted

/-! ## What a replay has seen -/

/-- How many entries insert a key. -/
def inserts (ref : List Entry) : Nat := ref.countP fun e => e.call.isInsert

/-- Inserts that were made and those that are still to come add up to the same
all along a trace.  So room for their sum in the beginning is room at every
step. -/
theorem inserted_after_add_inserts (r : Reference) (e : Entry) (ref : List Entry) :
    (r.after e.call e.holds).inserted + inserts ref = r.inserted + inserts (e :: ref) := by
  have moved : (r.after e.call e.holds).inserted =
      if e.call.isInsert then r.inserted + 1 else r.inserted := rfl
  rw [inserts, inserts, List.countP_cons, moved]
  split
  · rw [Nat.add_assoc, Nat.add_comm 1]
  · rfl

/-- The answered calls follow the reference up to the first answer that differs
from it.  There is no other reason to stop than such an answer, keys or values
that are too long, and a counter without room. -/
structure Followed (short room : Prop) (seen : List (Call × Reply)) (ref : List Entry)
    (result : Except (Failure WorkError) Unit) : Prop where
  calls : seen.map Prod.fst <+: ref.map Entry.call
  agree : List.Forall₂ Agrees seen.dropLast (ref.take (seen.length - 1))
  ok_iff : result = .ok () ↔ List.Forall₂ Agrees seen ref ∧ room
  length_eq : short → room → List.Forall₂ Agrees seen (ref.take seen.length) →
    seen.length = ref.length

namespace Followed

variable {short room : Prop} {answered : Call × Reply} {e : Entry} {seen : List (Call × Reply)}
  {ref : List Entry} {result : Except (Failure WorkError) Unit}

/-- A replay stops before a call whose key or value is too long. -/
theorem not_called (fails : result ≠ .ok ()) (long : ¬ short) :
    Followed short room [] (e :: ref) result where
  calls := List.nil_prefix
  agree := .nil
  ok_iff := ⟨fun h => absurd h fails, fun h => by cases h.1⟩
  length_eq h := absurd h long

/-- A replay stops after a call that was answered otherwise, or that left no
room for the counter. -/
theorem stopped (called : answered.1 = e.call) (fails : result ≠ .ok ())
    (cause : ¬ Agrees answered e ∨ ¬ room) :
    Followed short room [answered] (e :: ref) result where
  calls := List.cons_prefix_cons.2 ⟨called, List.nil_prefix⟩
  agree := .nil
  ok_iff := by
    refine ⟨fun h => absurd h fails, fun ⟨all, free⟩ => ?_⟩
    rcases cause with cause | cause
    · exact absurd (List.forall₂_cons.1 all).1 cause
    · exact absurd free cause
  length_eq _ free all := by
    rcases cause with cause | cause
    · exact absurd (List.forall₂_cons.1 all).1 cause
    · exact absurd free cause

theorem cons (here : Agrees answered e) (followed : Followed short room seen ref result) :
    Followed short room (answered :: seen) (e :: ref) result where
  calls := List.cons_prefix_cons.2 ⟨here.1, followed.calls⟩
  agree := by
    cases seen with
    | nil => exact .nil
    | cons next seen => exact .cons here followed.agree
  ok_iff := by rw [followed.ok_iff, List.forall₂_cons, and_iff_right here]
  length_eq fine free all :=
    congrArg Nat.succ (followed.length_eq fine free (List.forall₂_cons.1 all).2)

end Followed

/-- One step of a replay follows the reference.  Either it is the last one,
which happens for one of the reasons above, or it makes the call of the
reference and gets its answer, and the worker that is left still knows what the
reference knows. -/
theorem followed_of_stepped {events : List Event} {result : Except (Failure WorkError) Unit}
    {w' : Worker} (tracks : r.Tracks w) (bound : k < ops.toNat)
    (fits : w.keys.numberAt w.thread (r.entry w.keys w.thread schedule ops k).seq < 2 ^ 64)
    (stepped : Worker.Stepped w (.ofNat k) (.ofNat (k % 100)) (schedule.kindAt k) ops events
      result w') :
    let e := r.entry w.keys w.thread schedule ops k
    (∃ f, result = .error f ∧ ∀ ref, Followed (w.keys.size < 2 ^ 63 ∧ w.values.size < 2 ^ 63)
        (r.inserted + inserts (e :: ref) < 2 ^ 64) (events.filterMap Event.call?) (e :: ref)
        (.error f)) ∨
      result = .ok () ∧ (r.after e.call e.holds).Tracks w' ∧ w'.values.size = w.values.size ∧
        ∃ answered, events.filterMap Event.call? = [answered] ∧ Agrees answered e := by
  have small : k < 2 ^ 64 := Nat.lt_trans bound ops.toNat_lt
  have called {probe : Probe}
      (plan : w.plan (.ofNat k) (.ofNat (k % 100)) (schedule.kindAt k) ops = .ok probe) :
      probe.call = (r.entry w.keys w.thread schedule ops k).call ∧
        probe.expected = (r.entry w.keys w.thread schedule ops k).holds :=
    have planned := Worker.planned_of_plan plan
    ⟨(call_entry tracks small planned).symm, (holds_entry tracks small planned).symm⟩
  cases stepped with
  | unplanned plan =>
    refine .inl ⟨_, rfl, fun ref => .not_called (fun h => by cases h) fun sizes => ?_⟩
    have some_ops : ops ≠ 0 := by
      rintro rfl
      cases bound
    have seq : (r.entry w.keys w.thread schedule ops k).seq =
      r.place (schedule.kindAt k) ops k := rfl
    rw [seq, ← toNat_seqOf tracks small] at fits
    exact absurd (Worker.short_of_sizes sizes)
      ((Worker.hindered_of_plan plan).long some_ops fits).2
  | refused plan outcome =>
    refine .inl ⟨_, rfl, fun ref => .stopped (called plan).1 (fun h => by cases h) (.inl ?_)⟩
    rintro ⟨-, answer, answered, -⟩
    rw [outcome] at answered
    cases answered
  | mismatched plan outcome miss =>
    refine .inl ⟨_, rfl, fun ref => .stopped (called plan).1 (fun h => by cases h) (.inl ?_)⟩
    rintro ⟨-, answer, answered, hit⟩
    rw [outcome] at answered
    cases answered
    exact miss (hit.trans (called plan).2.symm)
  | overflown plan outcome hit full =>
    refine .inl ⟨_, rfl, fun ref => .stopped (called plan).1 (fun h => by cases h) (.inr ?_)⟩
    obtain ⟨insert, limit⟩ := Worker.isInsert_of_overflow (Worker.planned_of_plan plan) full
    have moved : (r.after _ (r.entry w.keys w.thread schedule ops k).holds).inserted =
        r.inserted + 1 :=
      if_pos ((called plan).1 ▸ insert)
    rw [← inserted_after_add_inserts, moved, ← tracks.inserted]
    omega
  | disordered plan outcome hit advance disorder =>
    have planned := Worker.planned_of_plan plan
    exact absurd (Worker.describes_advance tracks.describes planned advance).ordered disorder
  | @advanced probe reply answer window plan outcome hit advance ordered =>
    have planned := Worker.planned_of_plan plan
    have moved := tracks.after reply planned advance
    rw [(called plan).1, (called plan).2] at moved
    exact .inr ⟨rfl, moved, planned.size_values, _, rfl, (called plan).1, _, outcome,
      hit.trans (called plan).2⟩

/-- Whatever the replies are, the calls of a replay follow the reference, as
long as keys have numbers: each step does, until one is the last. -/
theorem followed_of_runs {n : Nat} {events : List Event}
    {result : Except (Failure WorkError) Unit} {w' : Worker} (tracks : r.Tracks w)
    (bound : k + n ≤ ops.toNat)
    (fit : ∀ e ∈ trace w.keys w.thread schedule ops k n r,
      w.keys.numberAt w.thread e.seq < 2 ^ 64)
    (runs : ((Worker.steps schedule ops k n).start w).Runs events (result, w')) :
    Followed (w.keys.size < 2 ^ 63 ∧ w.values.size < 2 ^ 63)
      (r.inserted + inserts (trace w.keys w.thread schedule ops k n r) < 2 ^ 64)
      (events.filterMap Event.call?) (trace w.keys w.thread schedule ops k n r) result := by
  -- the invariant: the worker knows what the reference knows
  induction n generalizing k r w events with
  | zero =>
    have room : r.inserted + inserts [] < 2 ^ 64 := by
      rw [← tracks.inserted]
      exact w.window.inserted.toNat_lt
    obtain ⟨rfl, same⟩ := Script.runs_done_iff.1 runs
    cases same
    exact ⟨List.nil_prefix, .nil, ⟨fun _ => ⟨.nil, room⟩, fun _ => rfl⟩, fun _ _ _ => rfl⟩
  | succ n ih =>
    rw [Worker.steps, Task.start_bind] at runs
    obtain ⟨first, ⟨r₁, w₁⟩, later, rfl, head, tail⟩ := Script.runs_bind_iff.1 runs
    have stepped := Worker.stepped_of_runs head
    rw [List.filterMap_append]
    rcases followed_of_stepped tracks (by omega) (fit _ List.mem_cons_self) stepped with
      ⟨f, rfl, last⟩ | ⟨rfl, moved, size, answered, once, agrees⟩
    · obtain ⟨rfl, same⟩ := Script.runs_done_iff.1 tail
      cases same
      rw [List.filterMap_nil, List.append_nil]
      exact last _
    · obtain ⟨keys, thread⟩ := stepped.same_keys
      rw [← keys, ← thread] at fit moved agrees ⊢
      have rest := ih moved (by omega) (fun e he => fit e (List.mem_cons_of_mem _ he)) tail
      rw [size] at rest
      rw [once, trace, ← inserted_after_add_inserts]
      exact .cons agrees rest

end Reference

/-- A worker that replays a schedule, against any table at all, makes a prefix
of the calls of a perfect map that begins with just the first keys of the
worker's thread.  All answers but the last are those of the map.  It succeeds
if and only if it made all calls and the last answer was right as well, as long
as its counters have room; and it does not stop before an answer is wrong
unless its keys or values are too long to exist. -/
theorem Worker.replay_follows_reference {σ : Type} (host : Host σ) (s : σ) (space : KeySpace)
    (thread filled : UInt64) (values : ValueSource) (latency : Bool) (schedule : Schedule)
    (ops : UInt64) (start : Contents) (filling : start.Fills space thread 0 filled.toNat)
    (first : ∀ i < filled.toNat, space.numberAt thread i < 2 ^ 64)
    (fit : ∀ e ∈ Reference.trace space thread schedule ops 0 ops.toNat
      ⟨start, filled.toNat, 0, values⟩, space.numberAt thread e.seq < 2 ^ 64) :
    let ref := Reference.trace space thread schedule ops 0 ops.toNat
      ⟨start, filled.toNat, 0, values⟩
    let room := filled.toNat + Reference.inserts ref < 2 ^ 64
    let played :=
      host.play .goOn ((replay schedule ops).start (ofThread thread filled space values latency))
        s
    let seen := played.events.filterMap Event.call?
    ∃ result w', played.result? = some (result, w') ∧
      seen.map Prod.fst <+: ref.map Reference.Entry.call ∧
      List.Forall₂ Reference.Agrees seen.dropLast (ref.take (seen.length - 1)) ∧
      (result = .ok () ↔ List.Forall₂ Reference.Agrees seen ref ∧ room) ∧
      (space.size < 2 ^ 63 ∧ values.size < 2 ^ 63 → room →
        List.Forall₂ Reference.Agrees seen (ref.take seen.length) → seen.length = ops.toNat) := by
  intro ref room played seen
  have tracks : Reference.Tracks ⟨start, filled.toNat, 0, values⟩
      (ofThread thread filled space values latency) :=
    ⟨⟨UInt64.zero_le, first, filling⟩, rfl, rfl, rfl⟩
  obtain ⟨events, ⟨result, w'⟩, s', play, runs, -⟩ :=
    host.exists_play ((replay schedule ops).start (ofThread thread filled space values latency)) s
  rw [replay_eq_steps] at runs
  have followed := Reference.followed_of_runs tracks (Nat.le_of_eq (Nat.zero_add _)) fit runs
  have events_eq : played.events = events := congrArg Performance.events play
  refine ⟨result, w', congrArg Performance.result? play, ?_⟩
  simp only [seen, events_eq]
  refine ⟨followed.calls, followed.agree, followed.ok_iff, fun sizes free all => ?_⟩
  rw [followed.length_eq sizes free all, Reference.length_trace]

/-- With one key filled in, an insert and an erase. -/
theorem Worker.replay_follows_reference_insert_erase :
    let space : KeySpace := ⟨1, 8, by decide, by decide⟩
    let schedule : Schedule := ⟨.ofFn fun i => if i.val % 2 = 0 then .insert else .erase⟩
    let start := (Contents.answer (.insert (space.keyAt 0 0) []) .empty).2
    let ref := Reference.trace space 0 schedule 2 0 2 ⟨start, 1, 0, .ofSeed 8 0⟩
    let played := (Host.ofTable Contents.table 0 id).play .goOn
      ((replay schedule 2).start (ofThread 0 1 space (.ofSeed 8 0) false)) start
    ∃ result w', played.result? = some (result, w') ∧
      (played.events.filterMap Event.call?).map Prod.fst <+: ref.map Reference.Entry.call := by
  intro space schedule start ref played
  have filling : start.Fills space 0 0 (1 : UInt64).toNat :=
    (Contents.Fills.of_empty space 0 0).insert (Nat.le_refl 0)
  have first : ∀ i < (1 : UInt64).toNat, space.numberAt 0 i < 2 ^ 64 := by decide
  have fit : ∀ e ∈ Reference.trace space 0 schedule 2 0 (2 : UInt64).toNat
      ⟨start, (1 : UInt64).toNat, 0, .ofSeed 8 0⟩,
        space.numberAt 0 e.seq < 2 ^ 64 := by decide +kernel
  obtain ⟨result, w', ends, calls, -⟩ :=
    replay_follows_reference (Host.ofTable Contents.table 0 id) start space 0 1
      (.ofSeed 8 0) false schedule 2 start filling first fit
  exact ⟨result, w', ends, calls⟩

end TableProbe
