import TableProbe.Proofs.Worker.Expected

/-!
# A replay sees even numbers only

The numbers that `scatter` gives to the operations of a replay are even, since
an operation and its slot are both odd or both even and the factors are odd.
So an upsert of a replay always inserts, and if the number of operations is
even, then reads and updates never come to a key with an odd sequence number
(`Worker.replay_probes_even`).
-/

namespace TableProbe

/-- Keys of one thread that can be made are as different as their sequence
numbers. -/
theorem KeySpace.key_inj (space : KeySpace) {seq other thread : UInt64} {key : Bytes}
    (h : space.key seq thread = .ok key) (h' : space.key other thread = .ok key) :
    seq = other := by
  obtain ⟨fits, -, rfl⟩ := space.key_eq_ok_iff.1 h
  obtain ⟨fits', -, same⟩ := space.key_eq_ok_iff.1 h'
  exact UInt64.toNat_inj.1 ((space.keyAt_inj fits fits').1 same)

namespace Worker

/-- The sequence number that a read or an update of a replay looks at. -/
def probed (ops : UInt64) (k : Nat) : UInt64 := scatter (.ofNat k) (.ofNat (k % 100)) % ops

/-- The scattered number of an operation of a replay is even.  If the number of
operations is even as well, then so is the remainder by it. -/
theorem probed_even {ops : UInt64} {k : Nat} (bound : k < 2 ^ 64) (even : ops % 2 = 0) :
    probed ops k % 2 = 0 := by
  have spread := scatter_even bound
  rw [← UInt64.toNat_inj, UInt64.toNat_mod] at spread even ⊢
  rw [probed, UInt64.toNat_mod, Nat.mod_mod_of_dvd _ (Nat.dvd_of_mod_eq_zero even)]
  exact spread

/-- What kind of call an operation of a replay makes, where reads and updates
look at a certain sequence number. -/
def Suits (space : KeySpace) (thread seq : UInt64) (kind : OpKind) (call : Call) : Prop :=
  match kind with
  | .read => ∃ key, call = .read key ∧ space.key seq thread = .ok key
  | .insert | .upsert => ∃ key value, call = .insert key value
  | .erase => ∃ key, call = .erase key
  | .update => ∃ key value, call = .update key value ∧ space.key seq thread = .ok key

/-- A call that reads or updates is one of a slot that does, and concerns the
key that is looked at. -/
theorem Suits.key_eq {space : KeySpace} {thread seq : UInt64} {kind : OpKind} {call : Call}
    {key : Bytes} (suits : Suits space thread seq kind call)
    (looks : call = .read key ∨ ∃ value, call = .update key value) :
    space.key seq thread = .ok key := by
  cases kind with
  | read =>
    obtain ⟨k, rfl, hkey⟩ := suits
    rcases looks with same | ⟨value, same⟩
    · cases same
      exact hkey
    · cases same
  | update =>
    obtain ⟨k, v, rfl, hkey⟩ := suits
    rcases looks with same | ⟨value, same⟩
    · cases same
    · cases same
      exact hkey
  | insert =>
    obtain ⟨k, v, rfl⟩ := suits
    rcases looks with same | ⟨value, same⟩
    · cases same
    · cases same
  | upsert =>
    obtain ⟨k, v, rfl⟩ := suits
    rcases looks with same | ⟨value, same⟩
    · cases same
    · cases same
  | erase =>
    obtain ⟨k, rfl⟩ := suits
    rcases looks with same | ⟨value, same⟩
    · cases same
    · cases same

section

variable {w w' : Worker} {schedule : Schedule} {ops : UInt64} {kind : OpKind} {k n : Nat}
  {events : List Event} {probe : Probe} {r : Except (Failure WorkError) Unit}

/-- Every planned operation of a replay makes the call that its kind asks for.
This is clear from the plan but for upserts, which could overwrite the newest
key instead: they do not, since their scattered numbers are even. -/
theorem suits_of_planned (bound : k < 2 ^ 64)
    (planned : Planned w (.ofNat k) (.ofNat (k % 100)) kind ops probe) :
    Suits w.keys w.thread (probed ops k) kind probe.call := by
  cases planned with
  | read hkind hseq hkey =>
    obtain ⟨-, rfl⟩ := Checked.rem_eq_ok_iff.1 hseq
    subst hkind
    exact ⟨_, rfl, hkey⟩
  | insert adds _ _ =>
    rcases adds with rfl | ⟨rfl, -⟩
    · exact ⟨_, _, rfl⟩
    · exact ⟨_, _, rfl⟩
  | erase hkind _ =>
    subst hkind
    exact ⟨_, rfl⟩
  | update hkind hseq hkey _ =>
    obtain ⟨-, rfl⟩ := Checked.rem_eq_ok_iff.1 hseq
    subst hkind
    exact ⟨_, _, rfl, hkey⟩
  | overwrite hkind skips _ _ => exact absurd (adds_of_upsert bound hkind) skips

/-- The calls are those of so many operations at most, one for each, in their
order. -/
def Issued (space : KeySpace) (thread : UInt64) (schedule : Schedule) (ops : UInt64) (k n : Nat)
    (calls : List (Call × Reply)) : Prop :=
  calls.length ≤ n ∧ ∀ i (h : i < calls.length),
    Suits space thread (probed ops (k + i)) (schedule.kindAt (k + i)) calls[i].1

theorem issued_nil (space : KeySpace) (thread : UInt64) :
    Issued space thread schedule ops k n [] :=
  ⟨Nat.zero_le n, fun i h => absurd h (Nat.not_lt_zero i)⟩

theorem issued_cons {space : KeySpace} {thread : UInt64} {call : Call × Reply}
    {calls : List (Call × Reply)}
    (first : Suits space thread (probed ops k) (schedule.kindAt k) call.1)
    (later : Issued space thread schedule ops (k + 1) n calls) :
    Issued space thread schedule ops k (n + 1) (call :: calls) := by
  refine ⟨Nat.succ_le_succ later.1, fun i h => ?_⟩
  cases i with
  | zero => exact first
  | succ i =>
    have rest := later.2 i (Nat.lt_of_succ_lt_succ h)
    rw [Nat.succ_add_eq_add_succ] at rest
    exact rest

/-- A program that ends early has made the first of the calls. -/
theorem issued_of_prefix {space : KeySpace} {thread : UInt64} {calls all : List (Call × Reply)}
    (before : calls <+: all) (issued : Issued space thread schedule ops k n all) :
    Issued space thread schedule ops k n calls := by
  refine ⟨Nat.le_trans before.length_le issued.1, fun i h => ?_⟩
  rw [before.getElem h]
  exact issued.2 i _

/-- The calls of a replay are those of its first operations, in order and
without a gap.  A step makes its own call or none; if it makes none then it has
failed, and nothing is called behind it. -/
theorem issued_of_steps (bound : k + n ≤ 2 ^ 64)
    (runs : ((steps schedule ops k n).start w).Runs events (r, w')) :
    Issued w.keys w.thread schedule ops k n (events.filterMap Event.call?) := by
  induction n generalizing k w events with
  | zero =>
    obtain ⟨rfl, -⟩ := Script.runs_done_iff.1 runs
    exact issued_nil w.keys w.thread
  | succ n ih =>
    rw [steps, Task.start_bind] at runs
    obtain ⟨first, ⟨r₁, w₁⟩, later, rfl, head, tail⟩ := Script.runs_bind_iff.1 runs
    have stepped := stepped_of_runs head
    rw [List.filterMap_append]
    -- nothing is called behind a step that failed
    have rest : Issued w.keys w.thread schedule ops (k + 1) n (later.filterMap Event.call?) := by
      cases r₁ with
      | error f =>
        obtain ⟨rfl, -⟩ := Script.runs_done_iff.1 tail
        exact issued_nil w.keys w.thread
      | ok u =>
        obtain ⟨keys, thread⟩ := stepped.same_keys
        rw [← keys, ← thread]
        exact ih (by omega) tail
    rcases stepped.calls with ⟨c, -, rfl, rfl, -⟩ | ⟨probe, reply, plan, once, -⟩
    · obtain ⟨rfl, -⟩ := Script.runs_done_iff.1 tail
      exact issued_nil w.keys w.thread
    · rw [once]
      exact issued_cons (suits_of_planned (by omega) (planned_of_plan plan)) rest

/-- A replay that succeeds makes a call for every operation. -/
theorem length_calls_of_ok (runs : ((steps schedule ops k n).start w).Runs events (.ok (), w')) :
    (events.filterMap Event.call?).length = n := by
  induction n generalizing k w events with
  | zero =>
    obtain ⟨rfl, -⟩ := Script.runs_done_iff.1 runs
    rfl
  | succ n ih =>
    rw [steps] at runs
    rcases Task.runs_bind_iff.1 runs with ⟨e, failed, -⟩ | ⟨u, mid, first, later, rfl, head, tail⟩
    · cases failed
    · obtain ⟨probe, reply, -, -, -, -, -, -, -, rfl, -⟩ := advanced_of_runs head
      rw [List.filterMap_append, List.length_append, ih tail, Nat.add_comm]
      rfl

/-- A replay up to an operation goes on with the step of that operation. -/
theorem replay_eq_bind (below : k < ops.toNat) : replay schedule ops = (do
    steps schedule ops 0 k
    step (.ofNat k) (.ofNat (k % 100)) (schedule.kindAt k) ops
    steps schedule ops (k + 1) (ops.toNat - (k + 1))) := by
  obtain ⟨n, total⟩ : ∃ n, ops.toNat = k + (n + 1) := Nat.exists_eq_add_of_lt below
  rw [replay_eq_steps, total, steps_add, steps, Nat.zero_add,
    show k + (n + 1) - (k + 1) = n by omega]

/-- What becomes of an operation of a replay that is begun: its call is made as
it was planned, or it is hindered and the replay ends with a crash before the
call. -/
theorem call_of_begun {σ : Type} {host : Host σ} {policy : AlarmPolicy} {s : σ} {mid : Worker}
    (below : k < ops.toNat)
    (begun : (host.play policy ((steps schedule ops 0 k).start w) s).result? =
      some (.ok (), mid)) :
    let played := host.play policy ((replay schedule ops).start w) s
    let calls := played.events.filterMap Event.call?
    (∃ probe reply, mid.plan (.ofNat k) (.ofNat (k % 100)) (schedule.kindAt k) ops = .ok probe ∧
        calls[k]? = some (probe.call, reply)) ∨
      ∃ c, Hindered mid (.ofNat k) (.ofNat (k % 100)) (schedule.kindAt k) ops c ∧
        calls.length = k ∧ played.result? = some (.error (.crash c), mid) := by
  intro played calls
  let first := host.play policy ((steps schedule ops 0 k).start w) s
  have made : (first.events.filterMap Event.call?).length = k :=
    length_calls_of_ok (host.runs_of_play begun)
  obtain ⟨s', goes_on⟩ := Task.play_bind_of_ok host policy (fun _ => do
    step (.ofNat k) (.ofNat (k % 100)) (schedule.kindAt k) ops
    steps schedule ops (k + 1) (ops.toNat - (k + 1))) begun
  rw [← replay_eq_bind below, Task.start_bind, start_step] at goes_on
  cases plan : mid.plan (.ofNat k) (.ofNat (k % 100)) (schedule.kindAt k) ops with
  | error c =>
    rw [plan] at goes_on
    have ends : played = ⟨some (.error (.crash c), mid), first.events.reverse.reverse, s'⟩ :=
      goes_on
    refine .inr ⟨c, hindered_of_plan plan, ?_, congrArg Performance.result? ends⟩
    simp only [calls, ends, List.reverse_reverse]
    exact made
  | ok probe =>
    rw [plan] at goes_on
    dsimp only at goes_on
    rw [Script.act_bind, host.playAfter_call] at goes_on
    obtain ⟨reply, rest, x, goes_on⟩ : ∃ reply rest x, played = host.playAfter policy rest
        (⟨.worker mid.thread, .call probe.call, reply⟩ :: first.events.reverse) x :=
      ⟨_, _, _, goes_on⟩
    obtain ⟨later, events, -⟩ := host.playAfter_spec policy rest
      (⟨.worker mid.thread, .call probe.call, reply⟩ :: first.events.reverse) x
    rw [← goes_on, List.reverse_cons, List.reverse_reverse, List.append_assoc] at events
    refine .inl ⟨probe, reply, rfl, ?_⟩
    simp only [calls]
    rw [events, List.filterMap_append, List.getElem?_append_right (Nat.le_of_eq made), made,
      Nat.sub_self]
    rfl

end

/-- The steps of a replay have even numbers, whatever the schedule and the
number of operations are.  Every operation that is begun makes its call, unless
it crashes before the call because its key or its value cannot be made; so a
replay that succeeds makes a call for each of its operations, in their order.
These calls are such that an upsert inserts, and that reads and updates concern
keys with even sequence numbers only, if the number of operations is even. -/
theorem replay_probes_even {σ : Type} (host : Host σ) (policy : AlarmPolicy) (s : σ) (w : Worker)
    (schedule : Schedule) (ops : UInt64) :
    let played := host.play policy ((replay schedule ops).start w) s
    let calls := played.events.filterMap Event.call?
    (Order.replay schedule ops).task = (Order.each schedule ops).forM Order.task ∧
      (∀ order ∈ Order.each schedule ops, ∃ op slot kind,
        order = .step op slot kind ops ∧ scatter op slot % 2 = 0) ∧
      calls.length ≤ ops.toNat ∧
      (∀ w', played.result? = some (.ok (), w') → calls.length = ops.toNat) ∧
      (∀ k < ops.toNat, ∀ mid,
        (host.play policy ((steps schedule ops 0 k).start w) s).result? = some (.ok (), mid) →
        (∃ probe reply,
          mid.plan (.ofNat k) (.ofNat (k % 100)) (schedule.kindAt k) ops = .ok probe ∧
            calls[k]? = some (probe.call, reply)) ∨
          ∃ c, Hindered mid (.ofNat k) (.ofNat (k % 100)) (schedule.kindAt k) ops c ∧
            calls.length = k ∧ played.result? = some (.error (.crash c), mid)) ∧
      ∀ k (h : k < calls.length),
        Suits w.keys w.thread (probed ops k) (schedule.kindAt k) calls[k].1 ∧
        (schedule.kindAt k = .upsert → ∃ key value, calls[k].1 = .insert key value) ∧
        (ops % 2 = 0 → ∀ key, calls[k].1 = .read key ∨ (∃ value, calls[k].1 = .update key value) →
          ∃ seq, w.keys.key seq w.thread = .ok key ∧ seq % 2 = 0 ∧
            ∀ other, w.keys.key other w.thread = .ok key → other % 2 = 0) := by
  intro played calls
  obtain ⟨events, ⟨result, w'⟩, s', play, runs, -⟩ :=
    host.exists_play ((replay schedule ops).start w) s
  have size : ops.toNat < 2 ^ 64 := ops.toNat_lt
  have all : Issued w.keys w.thread schedule ops 0 ops.toNat (events.filterMap Event.call?) := by
    rw [replay_eq_steps] at runs
    exact issued_of_steps (by omega) runs
  have before : calls <+: events.filterMap Event.call? := by
    have cut := host.events_play_prefix policy ((replay schedule ops).start w) s
    rw [play] at cut
    exact cut.filterMap Event.call?
  have issued := issued_of_prefix before all
  refine ⟨task_replay schedule ops, fun order member => ?_, issued.1, fun w' ok => ?_,
    fun k below mid begun => call_of_begun below begun, fun k h => ?_⟩
  · obtain ⟨k, below, rfl⟩ := List.mem_map.1 member
    have bound := List.mem_range.1 below
    exact ⟨_, _, _, rfl, scatter_even (by omega)⟩
  · have runs : ((steps schedule ops 0 ops.toNat).start w).Runs played.events (.ok (), w') := by
      rw [← replay_eq_steps]
      exact host.runs_of_play ok
    exact length_calls_of_ok runs
  · have bound : k < 2 ^ 64 := Nat.lt_of_lt_of_le h (by have := issued.1; omega)
    have suits : Suits w.keys w.thread (probed ops k) (schedule.kindAt k) calls[k].1 := by
      simpa only [Nat.zero_add] using issued.2 k h
    refine ⟨suits, fun upserts => ?_, fun even key looks => ?_⟩
    · rw [upserts] at suits
      exact suits
    · have made := suits.key_eq looks
      have probed_even := probed_even bound even
      refine ⟨probed ops k, made, probed_even, fun other same => ?_⟩
      rw [w.keys.key_inj same made]
      exact probed_even

end Worker

end TableProbe
