import TableProbe.Proofs.Worker.Plan
import TableProbe.Proofs.Worker.Replay
import TableProbe.Proofs.Worker.Step

/-!
# The counters of a worker count calls

A worker can be asked for steps and replays in any order, and can be asked
again after one of them failed (`Worker.serve`).  Whatever the table answers,
its two counters then say how many of its calls took effect.  The calls
themselves are kept in a ledger, which is read off the events alone;
`Window.Accounts` ties the counters to it.  One step keeps that tie
(`Worker.keeps_step`), and so does all that is made of steps.
-/

namespace TableProbe

/-! ## The ledger -/

/-- The keys of the calls that count: those added, and those removed while one
was left, each in order. -/
structure Ledger where
  added : List Bytes
  removed : List Bytes

namespace Ledger

/-- Enters an event.  An insert counts if it took effect and the next sequence
number fits into 64 bits; an erase counts if it took effect and fewer keys were
removed than filled in and added. -/
def enter (filled : Nat) (l : Ledger) (e : Event) : Ledger :=
  match e.call? with
  | some (.insert key _, ⟨.ok answer, _⟩) =>
    if answer.holds = true ∧
      filled + l.added.length + 1 < 2 ^ 64 then { l with added := l.added ++ [key] }
    else l
  | some (.erase key, ⟨.ok answer, _⟩) =>
    if answer.holds = true ∧ l.removed.length < filled + l.added.length then
      { l with removed := l.removed ++ [key] }
    else l
  | _ => l

/-- The ledger after some events, from an empty one. -/
def ofEvents (filled : Nat) (events : List Event) : Ledger := events.foldl (enter filled) ⟨[], []⟩

theorem enter_insert {filled : Nat} {l : Ledger} {who : Actor} {key value : Bytes}
    {answer : Answer} {micros : UInt64} (holds : answer.holds = true)
    (room : filled + l.added.length + 1 < 2 ^ 64) :
    enter filled l ⟨who, .call (.insert key value), ⟨.ok answer, micros⟩⟩ =
      { l with added := l.added ++ [key] } :=
  if_pos ⟨holds, room⟩

theorem enter_erase {filled : Nat} {l : Ledger} {who : Actor} {key : Bytes} {answer : Answer}
    {micros : UInt64} (holds : answer.holds = true)
    (left : l.removed.length < filled + l.added.length) :
    enter filled l ⟨who, .call (.erase key), ⟨.ok answer, micros⟩⟩ =
      { l with removed := l.removed ++ [key] } :=
  if_pos ⟨holds, left⟩

/-- A call that failed does not count, whatever became of it in the table. -/
theorem enter_of_error {filled : Nat} {l : Ledger} {who : Actor} {c : Call} {reply : Reply}
    {f : Failure TableError} (h : reply.outcome = .error f) :
    enter filled l ⟨who, .call c, reply⟩ = l := by
  rcases reply with ⟨outcome, micros⟩
  obtain rfl : outcome = .error f := h
  cases c with
  | init => rfl
  | insert key value => rfl
  | read key => rfl
  | update key value => rfl
  | erase key => rfl

end Ledger

/-! ## Moving a window on -/

namespace Window

variable {w w' : Window} {c : Crash}

/-- The counter that a move counts up; a move that counts nothing takes none of
them. -/
@[reducible] def counter (w : Window) : Move → UInt64
  | .none => 0
  | .erased => w.erased
  | .inserted => w.inserted

/-- The window with the counter of a move at another number. -/
@[reducible] def counted (w : Window) (n : UInt64) : Move → Window
  | .none => w
  | .erased => { w with erased := n }
  | .inserted => { w with inserted := n }

/-- A move counts its counter up by one, without wrapping around, and leaves
the other one alone. -/
theorem advance_eq_ok_iff {move : Move} : w.advance move = .ok w' ↔
    ∃ n, n.toNat = (w.counter move).toNat + 1 ∧ w' = w.counted n move := by
  have next {a : UInt64} {f : UInt64 → Window} :
      (Checked.add a 1 >>= fun n => .ok (f n)) = .ok w' ↔
        ∃ n, n.toNat = a.toNat + 1 ∧ w' = f n := by
    rw [bind_eq_ok_iff]
    exact exists_congr fun n => and_congr Checked.add_eq_ok_iff
      ⟨fun same => (Except.ok.inj same).symm, fun same => congrArg Except.ok same.symm⟩
  cases move with
  | none =>
    exact ⟨fun same => ⟨1, rfl, (Except.ok.inj same).symm⟩, fun ⟨_, _, same⟩ => same ▸ rfl⟩
  | erased => exact next
  | inserted => exact next

/-- A move fails only if its counter is at its end. -/
theorem advance_eq_error_iff {move : Move} : w.advance move = .error c ↔
    2 ^ 64 ≤ (w.counter move).toNat + 1 ∧ c = .sumTooLarge := by
  have next {a : UInt64} {f : UInt64 → Window} :
      (Checked.add a 1 >>= fun n => .ok (f n)) = .error c ↔
        2 ^ 64 ≤ a.toNat + 1 ∧ c = .sumTooLarge := by
    rw [bind_eq_error_iff, Checked.add_eq_error_iff]
    exact ⟨fun h => h.resolve_right fun ⟨_, _, left⟩ => (by cases left), .inl⟩
  cases move with
  | none =>
    have room : ¬ 2 ^ 64 ≤ (0 : UInt64).toNat + 1 := by decide
    exact ⟨fun left => (by cases left), fun full => absurd full.1 room⟩
  | erased => exact next
  | inserted => exact next

/-- While a key is left to erase, the counter of erased keys is below the other
one and so not at its end. -/
theorem advance_erased_ne_error (left : w.erased < w.inserted) :
    w.advance .erased ≠ .error c := by
  intro full
  have limit : 2 ^ 64 ≤ w.erased.toNat + 1 := (advance_eq_error_iff.1 full).1
  have bound : w.inserted.toNat < 2 ^ 64 := w.inserted.toNat_lt
  rw [UInt64.lt_iff_toNat_lt] at left
  omega

/-- A counter can only overflow.  Whether the counters are in order is checked
afterwards. -/
theorem eq_sumTooLarge_of_advance {move : Move} (h : w.advance move = .error c) :
    c = .sumTooLarge :=
  (advance_eq_error_iff.1 h).2

/-- A move leaves the counters in order, if it erases only while a key is left
to erase. -/
theorem ordered_of_advance {move : Move} (ordered : w.erased ≤ w.inserted)
    (h : w.advance move = .ok w') (left : move = .erased → w.erased < w.inserted) :
    w'.erased ≤ w'.inserted := by
  cases move with
  | none =>
    injection h with h
    exact h ▸ ordered
  | erased =>
    obtain ⟨n, hn, rfl⟩ := advance_eq_ok_iff.1 h
    rw [UInt64.le_iff_toNat_le, hn]
    exact left rfl
  | inserted =>
    obtain ⟨n, hn, rfl⟩ := advance_eq_ok_iff.1 h
    rw [UInt64.le_iff_toNat_le, hn]
    exact Nat.le_succ_of_le ordered

/-- Both counters of a window are at least as far on as those of another one. -/
structure Follows (w' w : Window) : Prop where
  erased : w.erased ≤ w'.erased
  inserted : w.inserted ≤ w'.inserted

theorem Follows.refl (w : Window) : w.Follows w := ⟨UInt64.le_refl _, UInt64.le_refl _⟩

theorem Follows.trans {w'' : Window} (later : w''.Follows w') (earlier : w'.Follows w) :
    w''.Follows w :=
  ⟨UInt64.le_trans earlier.erased later.erased, UInt64.le_trans earlier.inserted later.inserted⟩

theorem follows_of_advance {move : Move} (h : w.advance move = .ok w') : w'.Follows w := by
  cases move with
  | none =>
    injection h with h
    exact h ▸ Follows.refl w
  | erased =>
    obtain ⟨n, hn, rfl⟩ := advance_eq_ok_iff.1 h
    refine ⟨?_, UInt64.le_refl _⟩
    rw [UInt64.le_iff_toNat_le, hn]
    exact Nat.le_succ _
  | inserted =>
    obtain ⟨n, hn, rfl⟩ := advance_eq_ok_iff.1 h
    refine ⟨UInt64.le_refl _, ?_⟩
    rw [UInt64.le_iff_toNat_le, hn]
    exact Nat.le_succ _

end Window

/-! ## Counters and ledger -/

/-- Keys of successive sequence numbers of a thread differ. -/
theorem KeySpace.nodup_of_successive (space : KeySpace) (thread : UInt64) (first : Nat)
    {keys : List Bytes} (bound : first + keys.length ≤ 2 ^ 64)
    (successive : ∀ k (h : k < keys.length), space.key (.ofNat (first + k)) thread =
      .ok keys[k]) :
    keys.Nodup := by
  have size : UInt64.size = 2 ^ 64 := rfl
  rw [List.nodup_iff_pairwise_ne, List.pairwise_iff_getElem]
  intro i j hi hj lt same
  obtain ⟨fits, -, hkey⟩ := space.key_eq_ok_iff.1 (successive i hi)
  obtain ⟨fits', -, hkey'⟩ := space.key_eq_ok_iff.1 (successive j hj)
  rw [hkey, hkey', space.keyAt_inj fits fits', UInt64.toNat_ofNat_of_lt' (by omega),
    UInt64.toNat_ofNat_of_lt' (by omega)] at same
  omega

/-- The counters of a window agree with a ledger: each is the length of a list
of keys, and these are the keys of successive sequence numbers. -/
structure Window.Accounts (window : Window) (space : KeySpace) (thread : UInt64) (filled : Nat)
    (l : Ledger) : Prop where
  ordered : window.erased ≤ window.inserted
  inserted : window.inserted.toNat = filled + l.added.length
  erased : window.erased.toNat = l.removed.length
  added : ∀ k (h : k < l.added.length), space.key (.ofNat (filled + k)) thread = .ok l.added[k]
  removed : ∀ k (h : k < l.removed.length), space.key (.ofNat k) thread = .ok l.removed[k]

namespace Window.Accounts

variable {window window' : Window} {space : KeySpace} {thread : UInt64} {filled : Nat}
  {l : Ledger} {key : Bytes}

/-- An insert that counts is one of the next new key.  So the added keys are
still those of successive sequence numbers, and the counter of inserted keys
still tells how many there are. -/
theorem add (accounts : window.Accounts space thread filled l)
    (hkey : space.key window.inserted thread = .ok key)
    (advance : window.advance .inserted = .ok window') :
    window'.Accounts space thread filled { l with added := l.added ++ [key] } := by
  have ordered := ordered_of_advance accounts.ordered advance nofun
  obtain ⟨n, hn, rfl⟩ := advance_eq_ok_iff.1 advance
  refine ⟨ordered, ?_, accounts.erased, fun k h => ?_, accounts.removed⟩
  · rw [hn, accounts.inserted, List.length_append, List.length_singleton, Nat.add_assoc]
  · rcases Nat.lt_or_ge k l.added.length with old | new
    · simpa only [List.getElem_append_left old] using accounts.added k old
    · have last : k = l.added.length := by
        rw [List.length_append, List.length_singleton] at h
        omega
      subst last
      simpa only [List.getElem_concat_length, ← accounts.inserted, UInt64.ofNat_toNat] using hkey

/-- An erase that counts is one of the oldest key that is left, so the same is
true of the removed keys and of the counter of erased ones. -/
theorem remove (accounts : window.Accounts space thread filled l)
    (left : window.erased < window.inserted) (hkey : space.key window.erased thread = .ok key)
    (advance : window.advance .erased = .ok window') :
    window'.Accounts space thread filled { l with removed := l.removed ++ [key] } := by
  have ordered := ordered_of_advance accounts.ordered advance fun _ => left
  obtain ⟨n, hn, rfl⟩ := advance_eq_ok_iff.1 advance
  refine ⟨ordered, accounts.inserted, ?_, accounts.added, fun k h => ?_⟩
  · rw [hn, accounts.erased, List.length_append, List.length_singleton]
  · rcases Nat.lt_or_ge k l.removed.length with old | new
    · simpa only [List.getElem_append_left old] using accounts.removed k old
    · have last : k = l.removed.length := by
        rw [List.length_append, List.length_singleton] at h
        omega
      subst last
      simpa only [List.getElem_concat_length, ← accounts.erased, UInt64.ofNat_toNat] using hkey

/-- Whether a key is left can be told from the counters or from the ledger.
The worker decides by the former whether an erase counts, and the ledger by the
latter. -/
theorem erased_lt_iff (accounts : window.Accounts space thread filled l) :
    window.erased < window.inserted ↔ l.removed.length < filled + l.added.length := by
  rw [UInt64.lt_iff_toNat_lt, accounts.erased, accounts.inserted]

/-- No sequence number is added twice or removed twice: the keys of the ledger
have successive sequence numbers, and these lead to different keys. -/
theorem nodup (accounts : window.Accounts space thread filled l) :
    l.added.Nodup ∧ l.removed.Nodup := by
  have inserted := accounts.inserted
  have erased := accounts.erased
  have bound : window.inserted.toNat < 2 ^ 64 := window.inserted.toNat_lt
  have bound' : window.erased.toNat < 2 ^ 64 := window.erased.toNat_lt
  constructor
  · exact space.nodup_of_successive thread filled (by omega) accounts.added
  · refine space.nodup_of_successive thread 0 (by omega) fun k h => ?_
    rw [Nat.zero_add]
    exact accounts.removed k h

end Window.Accounts

namespace Worker

variable {w w' w'' : Worker} {op slot ops : UInt64} {kind : OpKind} {probe : Probe} {filled : Nat}
  {l : Ledger}

/-- An answer as expected is entered just as the counters move on.  The cases
are those of the probe: only inserts and erases that take effect do either. -/
theorem accounts_advance (who : Actor) {window' : Window} {reply : Reply} {answer : Answer}
    (accounts : w.window.Accounts w.keys w.thread filled l)
    (planned : Planned w op slot kind ops probe) (outcome : reply.outcome = .ok answer)
    (hit : answer.holds = probe.expected) (advance : w.window.advance probe.move = .ok window') :
    window'.Accounts w.keys w.thread filled (l.enter filled ⟨who, .call probe.call, reply⟩) := by
  rcases reply with ⟨_, micros⟩
  obtain rfl := outcome
  cases planned with
  | read _ _ _ =>
    injection advance with same
    exact same ▸ accounts
  | update _ _ _ _ =>
    injection advance with same
    exact same ▸ accounts
  | overwrite _ _ _ _ =>
    injection advance with same
    exact same ▸ accounts
  | insert _ hkey _ =>
    have room : filled + l.added.length + 1 < 2 ^ 64 := by
      obtain ⟨n, hn, -⟩ := Window.advance_eq_ok_iff.1 advance
      rw [← accounts.inserted, ← hn]
      exact n.toNat_lt
    rw [Ledger.enter_insert hit room]
    exact accounts.add hkey advance
  | erase _ hkey =>
    by_cases left : w.window.erased < w.window.inserted
    · rw [Ledger.enter_erase (hit.trans (decide_eq_true left)) (accounts.erased_lt_iff.1 left)]
      exact accounts.remove left hkey (by rwa [if_pos left] at advance)
    · have skipped : ¬ (answer.holds = true ∧ l.removed.length < filled + l.added.length) :=
        fun h => left (accounts.erased_lt_iff.2 h.2)
      rw [if_neg left] at advance
      injection advance with same
      rw [← same]
      simpa only [Ledger.enter, Event.call?, if_neg skipped] using accounts

/-- An answer that is not as expected, or that the counters cannot take, is not
entered. -/
theorem enter_of_not_advanced (who : Actor) {reply : Reply} {answer : Answer}
    (accounts : w.window.Accounts w.keys w.thread filled l)
    (planned : Planned w op slot kind ops probe) (outcome : reply.outcome = .ok answer)
    (stuck : answer.holds ≠ probe.expected ∨ ∃ c, w.window.advance probe.move = .error c) :
    l.enter filled ⟨who, .call probe.call, reply⟩ = l := by
  rcases reply with ⟨_, micros⟩
  obtain rfl := outcome
  cases planned with
  | read _ _ _ => rfl
  | update _ _ _ _ => rfl
  | overwrite _ _ _ _ => rfl
  | insert _ _ _ =>
    refine if_neg fun ⟨holds, room⟩ => ?_
    rcases stuck with miss | ⟨c, full⟩
    · exact miss holds
    · have full := (Window.advance_eq_error_iff.1 full).1
      rw [accounts.inserted] at full
      omega
  | erase _ _ =>
    refine if_neg fun ⟨holds, left⟩ => ?_
    have left := accounts.erased_lt_iff.2 left
    rcases stuck with miss | ⟨c, full⟩
    · exact miss (holds.trans (decide_eq_true left).symm)
    · rw [if_pos left] at full
      exact Window.advance_erased_ne_error left full

/-! ## What steps keep -/

/-- The counters of the worker that is left agree with the ledger after some
events, and they did not go back. -/
structure Kept (filled : Nat) (l : Ledger) (w : Worker) (events : List Event) (w' : Worker) :
    Prop where
  thread : w'.thread = w.thread
  keys : w'.keys = w.keys
  accounts : w'.window.Accounts w'.keys w'.thread filled (events.foldl (Ledger.enter filled) l)
  follows : w'.window.Follows w.window

/-- Agreement that is kept from one worker to a second one, and from that to a
third one, is kept all the way. -/
theorem Kept.trans {first later : List Event} (head : Kept filled l w first w')
    (tail : Kept filled (first.foldl (Ledger.enter filled) l) w' later w'') :
    Kept filled l w (first ++ later) w'' where
  thread := tail.thread.trans head.thread
  keys := tail.keys.trans head.keys
  accounts := by
    rw [List.foldl_append]
    exact tail.accounts
  follows := tail.follows.trans head.follows

/-- The table itself ended a call with the crash that stands for counters out
of order. -/
def PassedOn (events : List Event) : Prop :=
  ∃ e ∈ events, e.call?.map (fun answered => answered.2.outcome) =
    some (.error (.crash .countersOutOfOrder))

theorem PassedOn.append_left {first : List Event} (h : PassedOn first) (later : List Event) :
    PassedOn (first ++ later) :=
  h.imp fun _ h => ⟨List.mem_append_left _ h.1, h.2⟩

theorem PassedOn.append_right {later : List Event} (first : List Event) (h : PassedOn later) :
    PassedOn (first ++ later) :=
  h.imp fun _ h => ⟨List.mem_append_right _ h.1, h.2⟩

/-- Whatever the replies are, the task keeps the counters in agreement with the
ledger.  It never finds them out of order: if it ends so, then a call of the
table did. -/
def Keeps {α : Type} (task : Task Worker α) : Prop :=
  ∀ {filled : Nat} {l : Ledger} {w : Worker} {events r w'},
    w.window.Accounts w.keys w.thread filled l → (task.start w).Runs events (r, w') →
    Kept filled l w events w' ∧ (r = .error (.crash .countersOutOfOrder) → PassedOn events)

theorem keeps_pure {α : Type} (a : α) : Keeps (pure a) := by
  intro filled l w events r w' accounts runs
  obtain ⟨rfl, same⟩ := Script.runs_done_iff.1 runs
  cases same
  exact ⟨⟨rfl, rfl, accounts, .refl _⟩, fun h => by cases h⟩

/-- Tasks that keep the counters in agreement can be put together.  A failure
of the first one leaves the counters where the ledger has them. -/
theorem Keeps.bind {α β : Type} {task : Task Worker α} {next : α → Task Worker β}
    (head : Keeps task) (tail : ∀ a, Keeps (next a)) : Keeps (task >>= next) := by
  intro filled l w events r w' accounts runs
  rcases Task.runs_bind_iff.1 runs with ⟨e, rfl, failed⟩
    | ⟨a, mid, first, later, rfl, runs₁, runs₂⟩
  · obtain ⟨kept, fine⟩ := head accounts failed
    exact ⟨kept, fun h => by cases h; exact fine rfl⟩
  · obtain ⟨kept, fine⟩ := head accounts runs₁
    obtain ⟨kept', fine'⟩ := tail a kept.accounts runs₂
    exact ⟨kept.trans kept', fun h => (fine' h).append_right first⟩

/-- A step keeps the counters in agreement with the ledger.  A counter is
counted up exactly when the ledger enters the call: after an answer that was
expected and took effect, if there is room for one more. -/
theorem keeps_step (op slot : UInt64) (kind : OpKind) (ops : UInt64) :
    Keeps (step op slot kind ops) := by
  intro filled l w events r w' accounts runs
  -- in all cases but the last the counters stay where they are and nothing is entered
  have kept {w' : Worker} {events : List Event} (thread : w'.thread = w.thread)
      (keys : w'.keys = w.keys) (window : w'.window = w.window)
      (same : events.foldl (Ledger.enter filled) l = l) : Kept filled l w events w' :=
    ⟨thread, keys, by rwa [same, window, keys, thread], window ▸ .refl _⟩
  cases stepped_of_runs runs with
  | unplanned plan =>
    refine ⟨kept rfl rfl rfl rfl, fun h => ?_⟩
    injection h with h
    injection h with h
    subst h
    exact (hindered_of_plan plan).isArithmetic.elim
  | @refused probe reply f plan outcome =>
    refine ⟨kept rfl rfl rfl (Ledger.enter_of_error outcome), fun h => ?_⟩
    refine ⟨_, List.mem_singleton_self _, ?_⟩
    injection h with h
    cases f with
    | error e => cases h
    | crash c =>
      injection h with h
      exact congrArg some (h ▸ outcome)
  | mismatched plan outcome miss =>
    have same := enter_of_not_advanced (.worker w.thread) accounts (planned_of_plan plan) outcome
      (.inl miss)
    exact ⟨kept rfl rfl rfl same, fun h => by cases h⟩
  | overflown plan outcome hit full =>
    have stuck : ∃ c, w.window.advance _ = .error c := ⟨_, full⟩
    have same := enter_of_not_advanced (.worker w.thread) accounts (planned_of_plan plan) outcome
      (.inr stuck)
    refine ⟨kept rfl rfl rfl same, fun h => ?_⟩
    rw [Window.eq_sumTooLarge_of_advance full] at h
    cases h
  | disordered plan outcome hit advance disorder =>
    have planned := planned_of_plan plan
    -- in agreement with the ledger the counters are in order, so this case does not arise
    have agree :=
      accounts_advance (w := w) (.worker w.thread) accounts planned outcome hit advance
    exact absurd agree.ordered disorder
  | advanced plan outcome hit advance ordered =>
    have planned := planned_of_plan plan
    have agree :=
      accounts_advance (w := w) (.worker w.thread) accounts planned outcome hit advance
    exact ⟨⟨rfl, rfl, agree, Window.follows_of_advance advance⟩, fun h => by cases h⟩

theorem keeps_steps (schedule : Schedule) (ops : UInt64) (op n : Nat) :
    Keeps (steps schedule ops op n) := by
  induction n generalizing op with
  | zero => exact keeps_pure ()
  | succ n ih => exact Keeps.bind (keeps_step _ _ _ ops) fun _ => ih (op + 1)

/-! ## Orders -/

/-- What a worker can be asked for. -/
inductive Order
  /-- One step, with arbitrary numbers. -/
  | step (op slot : UInt64) (kind : OpKind) (ops : UInt64)
  /-- A whole replay. -/
  | replay (schedule : Schedule) (ops : UInt64)

/-- What a worker does when it is asked. -/
def Order.task : Order → Task Worker Unit
  | step op slot kind ops => Worker.step op slot kind ops
  | replay schedule ops => Worker.replay schedule ops

/-- The single steps of a replay. -/
def Order.each (schedule : Schedule) (ops : UInt64) : List Order :=
  (List.range ops.toNat).map fun k => .step (.ofNat k) (.ofNat (k % 100)) (schedule.kindAt k) ops

/-- Asks a worker for one thing after another, whether it succeeds or not. -/
def serve : List Order → Worker → Script (List (Except (Failure WorkError) Unit) × Worker)
  | [], w => return ([], w)
  | order :: orders, w => do
    let (r, w) ← order.task.start w
    let (results, w) ← serve orders w
    return (r :: results, w)

theorem keeps_task (order : Order) : Keeps order.task := by
  cases order with
  | step op slot kind ops => exact keeps_step op slot kind ops
  | replay schedule ops =>
    rw [Order.task, replay_eq_steps]
    exact keeps_steps schedule ops 0 ops.toNat

theorem task_replay (schedule : Schedule) (ops : UInt64) :
    (Order.replay schedule ops).task = (Order.each schedule ops).forM Order.task := by
  rw [Order.task, replay_eq_steps, steps_eq_forM, Order.each, List.range_eq_range',
    List.forM_eq_forM, List.forM_eq_forM, List.forM_map]
  rfl

/-- After a failure the worker is asked again as it was left, so the counters
stay in agreement with the ledger across failures. -/
theorem kept_of_serve {orders : List Order} {events : List Event}
    {results : List (Except (Failure WorkError) Unit)}
    (accounts : w.window.Accounts w.keys w.thread filled l)
    (runs : (serve orders w).Runs events (results, w')) :
    Kept filled l w events w' ∧ results.length = orders.length ∧
      (.error (.crash .countersOutOfOrder) ∈ results → PassedOn events) := by
  induction orders generalizing l w events results with
  | nil =>
    obtain ⟨rfl, same⟩ := Script.runs_done_iff.1 runs
    cases same
    exact ⟨⟨rfl, rfl, accounts, .refl _⟩, rfl, fun h => by cases h⟩
  | cons order orders ih =>
    obtain ⟨first, ⟨r, w₁⟩, later, rfl, head, tail⟩ := Script.runs_bind_iff.1 runs
    obtain ⟨second, ⟨rest, w₂⟩, last, rfl, tail, done⟩ := Script.runs_bind_iff.1 tail
    obtain ⟨rfl, same⟩ := Script.runs_done_iff.1 done
    cases same
    obtain ⟨kept, passed⟩ := keeps_task order accounts head
    obtain ⟨kept', lengths, passed'⟩ := ih kept.accounts tail
    rw [List.append_nil]
    refine ⟨kept.trans kept', congrArg Nat.succ lengths, fun h => ?_⟩
    rcases List.mem_cons.1 h with h | h
    · exact (passed h.symm).append_left second
    · exact (passed' h).append_right first

/-- A worker that has just begun agrees with an empty ledger. -/
theorem accounts_ofThread (thread filled : UInt64) (keys : KeySpace) (values : ValueSource)
    (latency : Bool) :
    (ofThread thread filled keys values latency).window.Accounts keys thread filled.toNat
      ⟨[], []⟩ where
  ordered := UInt64.zero_le
  inserted := rfl
  erased := rfl
  added _ h := nomatch h
  removed _ h := nomatch h

/-- An insert that took effect moves the counter of inserted keys on.  If that
counter is at its end, the step crashes instead and leaves both counters as
they are. -/
theorem result_of_insert {events : List Event} {r : Except (Failure WorkError) Unit} {e : Event}
    {key value : Bytes} {answer : Answer} {micros : UInt64}
    (ordered : w.window.erased ≤ w.window.inserted)
    (stepped : Stepped w op slot kind ops events r w') (mem : e ∈ events)
    (call : e.call? = some (.insert key value, ⟨.ok answer, micros⟩))
    (holds : answer.holds = true) :
    if w.window.inserted.toNat + 1 < 2 ^ 64 then
      r = .ok () ∧ w'.window.inserted.toNat = w.window.inserted.toNat + 1 ∧
        w'.window.erased = w.window.erased
    else r = .error (.crash .sumTooLarge) ∧ w'.window = w.window := by
  -- the only call of a step is the planned one, so the probe adds a key
  have probed {probe : Probe} {reply : Reply} (plan : w.plan op slot kind ops = .ok probe)
      (same : some (probe.call, reply) = e.call?) :
      probe.move = .inserted ∧ probe.expected = true ∧ reply.outcome = .ok answer := by
    rw [call] at same
    injection same with same
    injection same with same outcome
    cases planned_of_plan plan with
    | insert _ _ _ => exact ⟨rfl, rfl, congrArg Reply.outcome outcome⟩
    | read _ _ _ => cases same
    | erase _ _ => cases same
    | update _ _ _ _ => cases same
    | overwrite _ _ _ _ => cases same
  cases stepped with
  | unplanned _ => cases mem
  | refused plan failed =>
    obtain rfl := List.mem_singleton.1 mem
    have outcome := (probed plan rfl).2.2
    rw [failed] at outcome
    cases outcome
  | mismatched plan outcome miss =>
    rcases List.mem_cons.1 mem with rfl | mem
    · obtain ⟨-, expected, same⟩ := probed plan rfl
      rw [outcome] at same
      injection same with same
      exact absurd (by rw [same, holds, expected]) miss
    · rcases List.mem_cons.1 mem with rfl | mem
      · cases call
      · obtain rfl := List.mem_singleton.1 mem
        cases call
  | overflown plan outcome hit full =>
    obtain rfl := List.mem_singleton.1 mem
    rw [(probed plan rfl).1] at full
    obtain ⟨limit, rfl⟩ := Window.advance_eq_error_iff.1 full
    rw [if_neg (Nat.not_lt.2 limit)]
    exact ⟨rfl, rfl⟩
  | disordered plan outcome hit advance disorder =>
    obtain rfl := List.mem_singleton.1 mem
    rw [(probed plan rfl).1] at advance
    exact absurd (Window.ordered_of_advance ordered advance nofun) disorder
  | advanced plan outcome hit advance _ =>
    obtain rfl := List.mem_singleton.1 mem
    rw [(probed plan rfl).1] at advance
    obtain ⟨n, hn, rfl⟩ := Window.advance_eq_ok_iff.1 advance
    have room : w.window.inserted.toNat + 1 < 2 ^ 64 := hn ▸ n.toNat_lt
    rw [if_pos room]
    exact ⟨rfl, hn, rfl⟩

/-- Whatever the table answers and whatever a worker is asked for, failed or
not: its counters agree with the ledger of its calls, are in order and never go
back, and only an insert at the end of the counter of inserted keys is left
out.  A replay is no more than its steps, so this holds at every point within
one. -/
theorem counters_agree_with_ledger {σ : Type} (host : Host σ) (s : σ) (thread filled : UInt64)
    (keys : KeySpace) (values : ValueSource) (latency : Bool) (orders : List Order) :
    let served := host.play .goOn (serve orders (ofThread thread filled keys values latency)) s
    let ledger := Ledger.ofEvents filled.toNat served.events
    ∃ results w, served.result? = some (results, w) ∧ results.length = orders.length ∧
      w.window.Accounts keys thread filled.toNat ledger ∧ ledger.added.Nodup ∧
        ledger.removed.Nodup ∧
      (.error (.crash .countersOutOfOrder) ∈ results → PassedOn served.events) ∧
      (∀ more s', ∃ results' w', (host.play .goOn (serve more w) s').result? =
        some (results', w') ∧ w'.window.Follows w.window) ∧
      (∀ op slot kind ops s', ∃ r w',
        (host.play .goOn ((step op slot kind ops).start w) s').result? = some (r, w') ∧
        ∀ e ∈ (host.play .goOn ((step op slot kind ops).start w) s').events,
          ∀ key value answer micros, e.call? = some (.insert key value, ⟨.ok answer, micros⟩) →
          answer.holds = true →
          if w.window.inserted.toNat + 1 < 2 ^ 64 then
            r = .ok () ∧ w'.window.inserted.toNat = w.window.inserted.toNat + 1 ∧
              w'.window.erased = w.window.erased
          else r = .error (.crash .sumTooLarge) ∧ w'.window = w.window) ∧
      ∀ schedule ops, (Order.replay schedule ops).task =
          (Order.each schedule ops).forM Order.task := by
  intro served ledger
  obtain ⟨events, ⟨results, w⟩, s₁, play, runs, -⟩ :=
    host.exists_play (serve orders (ofThread thread filled keys values latency)) s
  obtain ⟨kept, lengths, passed⟩ :=
    kept_of_serve (accounts_ofThread thread filled keys values latency) runs
  have accounts : w.window.Accounts keys thread filled.toNat ledger := by
    have accounts := kept.accounts
    rw [kept.keys, kept.thread] at accounts
    simp only [ledger, served, play]
    exact accounts
  refine ⟨results, w, congrArg Performance.result? play, lengths, accounts, accounts.nodup.1,
    accounts.nodup.2, ?_, fun more s' => ?_, fun op slot kind ops s' => ?_, task_replay⟩
  · simpa only [served, play] using passed
  · obtain ⟨events', ⟨results', w'⟩, s₂, play', runs', -⟩ := host.exists_play (serve more w) s'
    exact ⟨results', w', congrArg Performance.result? play',
      (kept_of_serve kept.accounts runs').1.follows⟩
  · obtain ⟨events', ⟨r, w'⟩, s₂, play', runs', -⟩ :=
      host.exists_play ((step op slot kind ops).start w) s'
    refine ⟨r, w', congrArg Performance.result? play',
      fun e mem key value answer micros call holds => ?_⟩
    rw [play'] at mem
    exact result_of_insert accounts.ordered (stepped_of_runs runs') mem call holds

end Worker

end TableProbe
