import TableProbe.Proofs.KeySpace
import TableProbe.Worker.Basic

/-!
# What is planned

A plan is one of five probes, each with the conditions under which it is made:
`Worker.Planned` lists them, and `Worker.planned_of_plan` finds the one that a
plan is.  Where there is no plan, `Worker.Hindered` says what is in the way.
-/

namespace TableProbe

/-- A value is drawn unless it is too long to exist, and drawing it moves the
generator on by the bytes of the value. -/
theorem ValueSource.next_eq_ok_iff {source rest : ValueSource} {value : Bytes} :
    source.next = .ok (value, rest) ↔ source.size < 2 ^ 63 ∧
      value = (source.generator.bytes source.size).1 ∧
      rest = { source with generator := (source.generator.bytes source.size).2 } := by
  rw [next, bind_eq_ok_iff]
  constructor
  · rintro ⟨n, hn, h⟩
    obtain ⟨short, rfl⟩ := Checked.length_eq_ok_iff.1 hn
    injection h with h
    injection h with hvalue hrest
    exact ⟨short, hvalue.symm, hrest.symm⟩
  · rintro ⟨short, rfl, rfl⟩
    exact ⟨source.size, Checked.length_eq_ok_iff.2 ⟨short, rfl⟩, rfl⟩

theorem Checked.rem_eq_ok_iff {a b c : UInt64} : rem a b = .ok c ↔ b ≠ 0 ∧ c = a % b := by
  unfold rem
  split <;> rename_i h
  · exact ⟨fun eq => (by cases eq), fun eq => absurd h eq.1⟩
  · rw [Except.ok.injEq]
    exact ⟨fun eq => ⟨h, eq.symm⟩, fun eq => eq.2.symm⟩

/-! ## Crashes of arithmetic -/

/-- The crash is one of checked arithmetic. -/
def Crash.IsArithmetic : Crash → Prop
  | .sumTooLarge | .productTooLarge | .quotientByZero | .remainderByZero | .lengthTooLarge => True
  | .durationTooLong | .countersOutOfOrder | .table _ => False

/-- What keeps a key from being made: its number does not fit into a word, or
it is too long. -/
theorem KeySpace.key_eq_error (space : KeySpace) {seq thread : UInt64} {c : Crash}
    (h : space.key seq thread = .error c) :
    2 ^ 64 ≤ space.numberAt thread seq.toNat ∧ (c = .productTooLarge ∨ c = .sumTooLarge) ∨
      c = .lengthTooLarge ∧ ¬ space.size < 2 ^ 63 := by
  rcases bind_eq_error_iff.1 h with overflow | ⟨number, -, h⟩
  · refine .inl ⟨Nat.le_of_not_lt fun fits => ?_, ?_⟩
    · have number : space.number seq thread = .ok (.ofNat (space.numberAt thread seq.toNat)) :=
        space.number_eq_ok_iff.2 (UInt64.toNat_ofNat_of_lt' fits)
      rw [number] at overflow
      cases overflow
    · rcases bind_eq_error_iff.1 overflow with overflow | ⟨product, -, overflow⟩
      · exact .inl (Checked.mul_eq_error_iff.1 overflow).2
      · exact .inr (Checked.add_eq_error_iff.1 overflow).2
  · rcases bind_eq_error_iff.1 h with h | ⟨length, -, h⟩
    · obtain ⟨long, rfl⟩ := Checked.length_eq_error_iff.1 h
      exact .inr ⟨rfl, Nat.not_lt.2 long⟩
    · cases h

/-- A key whose number does not overflow can only be too long. -/
theorem KeySpace.long_of_key_eq_error (space : KeySpace) {seq thread : UInt64} {c : Crash}
    (fits : space.numberAt thread seq.toNat < 2 ^ 64) (h : space.key seq thread = .error c) :
    c = .lengthTooLarge ∧ ¬ space.size < 2 ^ 63 :=
  (space.key_eq_error h).resolve_left fun overflow => absurd fits (Nat.not_lt.2 overflow.1)

/-- Values can only be too long. -/
theorem ValueSource.long_of_next_eq_error {source : ValueSource} {c : Crash}
    (h : source.next = .error c) : c = .lengthTooLarge ∧ ¬ source.size < 2 ^ 63 := by
  rcases bind_eq_error_iff.1 h with h | ⟨length, -, h⟩
  · obtain ⟨long, rfl⟩ := Checked.length_eq_error_iff.1 h
    exact ⟨rfl, Nat.not_lt.2 long⟩
  · cases h

/-! ## Probes -/

/-- Operations of this kind write a value. -/
def OpKind.writes : OpKind → Bool
  | insert | update | upsert => true
  | read | erase => false

namespace Worker

variable {w : Worker} {op slot ops : UInt64} {kind : OpKind} {probe : Probe}

/-- The operation adds the next new key: it is an insert, or an upsert that
does not overwrite. -/
def Adds (w : Worker) (op slot : UInt64) (kind : OpKind) : Prop :=
  kind = .insert ∨ kind = .upsert ∧ (w.window.inserted = 0 ∨ scatter op slot % 2 = 0)

/-- The probes that a worker plans, one by one. -/
inductive Planned (w : Worker) (op slot : UInt64) (kind : OpKind) (ops : UInt64) : Probe → Prop
  | read {seq : UInt64} {key : Bytes} :
      kind = .read → Checked.rem (scatter op slot) ops = .ok seq → w.key seq = .ok key →
      Planned w op slot kind ops ⟨.read key, seq, w.window.contains seq, .none, w.values⟩
  | insert {key value : Bytes} {values : ValueSource} :
      w.Adds op slot kind → w.key w.window.inserted = .ok key →
        w.values.next = .ok (value, values) →
      Planned w op slot kind ops ⟨.insert key value, w.window.inserted, true, .inserted, values⟩
  | erase {key : Bytes} :
      kind = .erase → w.key w.window.erased = .ok key →
      Planned w op slot kind ops
        ⟨.erase key, w.window.erased, w.window.erased < w.window.inserted,
          if w.window.erased < w.window.inserted then .erased else .none, w.values⟩
  | update {seq : UInt64} {key value : Bytes} {values : ValueSource} :
      kind = .update → Checked.rem (scatter op slot) ops = .ok seq → w.key seq = .ok key →
      w.values.next = .ok (value, values) →
      Planned w op slot kind ops ⟨.update key value, seq, w.window.contains seq, .none, values⟩
  | overwrite {key value : Bytes} {values : ValueSource} :
      kind = .upsert → ¬ w.Adds op slot kind → w.key (w.window.inserted - 1) = .ok key →
      w.values.next = .ok (value, values) →
      Planned w op slot kind ops ⟨.update key value, w.window.inserted - 1, true, .none, values⟩

/-- Draws a key and the next value, and makes a plan of them. -/
def draw (w : Worker) (seq : UInt64) (make : Bytes → Bytes → ValueSource → Probe) :
    Except Crash Probe := do
  let key ← w.key seq
  let (value, values) ← w.values.next
  return make key value values

/-- Inserts and updates draw a key and a value in the same way, and differ in
what they plan with them.  What can go wrong is shown for `draw`, for both of
them at once. -/
theorem planInsert_eq_draw (w : Worker) :
    w.planInsert = w.draw w.window.inserted fun key value values =>
      ⟨.insert key value, w.window.inserted, true, .inserted, values⟩ := rfl

theorem planUpdate_eq_draw (w : Worker) (seq : UInt64) (expected : Bool) :
    w.planUpdate seq expected = w.draw seq fun key value values =>
      ⟨.update key value, seq, expected, .none, values⟩ := rfl

theorem draw_eq_ok_iff {make : Bytes → Bytes → ValueSource → Probe} {seq : UInt64} :
    w.draw seq make = .ok probe ↔ ∃ key value values, w.key seq = .ok key ∧
      w.values.next = .ok (value, values) ∧ probe = make key value values := by
  constructor
  · intro h
    obtain ⟨key, hkey, h⟩ := bind_eq_ok_iff.1 h
    obtain ⟨⟨value, values⟩, hvalue, h⟩ := bind_eq_ok_iff.1 h
    injection h with h
    exact ⟨key, value, values, hkey, hvalue, h.symm⟩
  · rintro ⟨key, value, values, hkey, hvalue, rfl⟩
    exact bind_eq_ok_iff.2 ⟨key, hkey, bind_eq_ok_iff.2 ⟨_, hvalue, rfl⟩⟩

/-- There are two ways to fail here, and they are those of the key and of the
value. -/
theorem draw_eq_error {make : Bytes → Bytes → ValueSource → Probe} {seq : UInt64} {c : Crash}
    (h : w.draw seq make = .error c) : w.key seq = .error c ∨ w.values.next = .error c := by
  rcases bind_eq_error_iff.1 h with h | ⟨key, -, h⟩
  · exact .inl h
  · rcases bind_eq_error_iff.1 h with h | ⟨_, -, h⟩
    · exact .inr h
    · cases h

theorem planInsert_eq_ok_iff : w.planInsert = .ok probe ↔
    ∃ key value values, w.key w.window.inserted = .ok key ∧ w.values.next = .ok (value, values) ∧
      probe = ⟨.insert key value, w.window.inserted, true, .inserted, values⟩ := by
  rw [planInsert_eq_draw]
  exact draw_eq_ok_iff

theorem planUpdate_eq_ok_iff {seq : UInt64} {expected : Bool} :
    w.planUpdate seq expected = .ok probe ↔
      ∃ key value values, w.key seq = .ok key ∧ w.values.next = .ok (value, values) ∧
        probe = ⟨.update key value, seq, expected, .none, values⟩ := by
  rw [planUpdate_eq_draw]
  exact draw_eq_ok_iff

/-- An upsert adds the next new key if there is no key yet, or if its scattered
number is even; otherwise it overwrites the newest key. -/
theorem plan_upsert : w.plan op slot .upsert ops =
    if w.window.inserted = 0 ∨ scatter op slot % 2 = 0 then w.planInsert
    else w.planUpdate (w.window.inserted - 1) true := by
  unfold plan
  simp only [Bool.or_eq_true, decide_eq_true_eq]

/-- Whatever is planned is one of these probes.  Later proofs take plans apart
by this lemma only. -/
theorem planned_of_plan (h : w.plan op slot kind ops = .ok probe) :
    Planned w op slot kind ops probe := by
  cases kind with
  | read =>
    obtain ⟨seq, hseq, h⟩ := bind_eq_ok_iff.1 h
    obtain ⟨key, hkey, h⟩ := bind_eq_ok_iff.1 h
    injection h with h
    subst h
    exact .read rfl hseq hkey
  | insert =>
    obtain ⟨key, value, values, hkey, hvalue, rfl⟩ := planInsert_eq_ok_iff.1 h
    exact .insert (.inl rfl) hkey hvalue
  | erase =>
    obtain ⟨key, hkey, h⟩ := bind_eq_ok_iff.1 h
    injection h with h
    subst h
    simpa only [decide_eq_true_eq] using Planned.erase rfl hkey
  | update =>
    obtain ⟨seq, hseq, h⟩ := bind_eq_ok_iff.1 h
    obtain ⟨key, value, values, hkey, hvalue, rfl⟩ := planUpdate_eq_ok_iff.1 h
    exact .update rfl hseq hkey hvalue
  | upsert =>
    rw [plan_upsert] at h
    split at h <;> rename_i adds
    · obtain ⟨key, value, values, hkey, hvalue, rfl⟩ := planInsert_eq_ok_iff.1 h
      exact .insert (.inr ⟨rfl, adds⟩) hkey hvalue
    · obtain ⟨key, value, values, hkey, hvalue, rfl⟩ := planUpdate_eq_ok_iff.1 h
      refine .overwrite rfl (fun h => ?_) hkey hvalue
      rcases h with h | h
      · cases h
      · exact adds h.2

theorem Planned.size_values (planned : Planned w op slot kind ops probe) :
    probe.values.size = w.values.size := by
  cases planned with
  | read _ _ _ => rfl
  | insert _ _ hvalue => exact (ValueSource.next_eq_ok hvalue).2
  | erase _ _ => rfl
  | update _ _ _ hvalue => exact (ValueSource.next_eq_ok hvalue).2
  | overwrite _ _ _ hvalue => exact (ValueSource.next_eq_ok hvalue).2

/-- The sequence number of the key that an operation concerns. -/
def seqOf (w : Worker) (op slot : UInt64) (kind : OpKind) (ops : UInt64) : UInt64 :=
  match kind with
  | .read | .update => scatter op slot % ops
  | .insert => w.window.inserted
  | .erase => w.window.erased
  | .upsert =>
    if w.window.inserted = 0 ∨ scatter op slot % 2 = 0 then w.window.inserted
      else w.window.inserted - 1

/-- What the call of an operation has to answer. -/
def expects (w : Worker) (op slot : UInt64) (kind : OpKind) (ops : UInt64) : Bool :=
  match kind with
  | .read | .update => w.window.contains (w.seqOf op slot kind ops)
  | .insert | .upsert => true
  | .erase => w.window.erased < w.window.inserted

theorem seqOf_of_adds (adds : w.Adds op slot kind) :
    w.seqOf op slot kind ops = w.window.inserted := by
  rcases adds with rfl | ⟨rfl, adds⟩
  · rfl
  · exact if_pos adds

theorem seqOf_of_skips (skips : ¬ w.Adds op slot .upsert) :
    w.seqOf op slot .upsert ops = w.window.inserted - 1 :=
  if_neg fun adds => skips (.inr ⟨rfl, adds⟩)

/-- The sequence number that a probe is reported with can be told before it is
planned. -/
theorem Planned.seq_eq (planned : Planned w op slot kind ops probe) :
    probe.seq = w.seqOf op slot kind ops := by
  cases planned with
  | read hkind hseq _ =>
    subst hkind
    exact (Checked.rem_eq_ok_iff.1 hseq).2
  | insert adds _ _ => exact (seqOf_of_adds adds).symm
  | erase hkind _ =>
    subst hkind
    rfl
  | update hkind hseq _ _ =>
    subst hkind
    exact (Checked.rem_eq_ok_iff.1 hseq).2
  | overwrite hkind skips _ _ =>
    subst hkind
    exact (seqOf_of_skips skips).symm

/-- What a probe expects can be told before it is planned: it depends on the
operation and on the window only. -/
theorem Planned.expected_eq (planned : Planned w op slot kind ops probe) :
    probe.expected = w.expects op slot kind ops := by
  have seq := planned.seq_eq
  cases planned with
  | read hkind _ _ =>
    subst hkind
    exact congrArg w.window.contains seq
  | insert adds _ _ =>
    rcases adds with rfl | ⟨rfl, -⟩
    · rfl
    · rfl
  | erase hkind _ =>
    subst hkind
    rfl
  | update hkind _ _ _ =>
    subst hkind
    exact congrArg w.window.contains seq
  | overwrite hkind _ _ _ =>
    subst hkind
    rfl

/-- An operation takes the next value if it writes one, and none otherwise.
This is known when it is planned, whatever the answer will be. -/
theorem Planned.next_values (planned : Planned w op slot kind ops probe) :
    if kind.writes then ∃ value, w.values.next = .ok (value, probe.values)
    else probe.values = w.values := by
  cases planned with
  | read hkind _ _ =>
    subst hkind
    rfl
  | insert adds _ hvalue =>
    rcases adds with rfl | ⟨rfl, -⟩
    · exact ⟨_, hvalue⟩
    · exact ⟨_, hvalue⟩
  | erase hkind _ =>
    subst hkind
    rfl
  | update hkind _ _ hvalue =>
    subst hkind
    exact ⟨_, hvalue⟩
  | overwrite hkind _ _ hvalue =>
    subst hkind
    exact ⟨_, hvalue⟩

/-! ## What keeps an operation from being planned -/

/-- Keys, and the values that an operation of a kind writes, are not too long
to exist. -/
def Short (w : Worker) (kind : OpKind) : Prop :=
  w.keys.size < 2 ^ 63 ∧ (kind.writes = true → w.values.size < 2 ^ 63)

theorem short_of_sizes (sizes : w.keys.size < 2 ^ 63 ∧ w.values.size < 2 ^ 63) : w.Short kind :=
  ⟨sizes.1, fun _ => sizes.2⟩

theorem Planned.short (planned : Planned w op slot kind ops probe) : w.Short kind := by
  have key {seq : UInt64} {key : Bytes} (h : w.key seq = .ok key) : w.keys.size < 2 ^ 63 :=
    (w.keys.key_eq_ok_iff.1 h).2.1
  have value {v : Bytes} {values : ValueSource} (h : w.values.next = .ok (v, values)) :
      w.values.size < 2 ^ 63 := (ValueSource.next_eq_ok_iff.1 h).1
  cases planned with
  | read hkind _ hkey => exact ⟨key hkey, fun writes => by rw [hkind] at writes; cases writes⟩
  | insert _ hkey hvalue => exact ⟨key hkey, fun _ => value hvalue⟩
  | erase hkind hkey => exact ⟨key hkey, fun writes => by rw [hkind] at writes; cases writes⟩
  | update _ _ hkey hvalue => exact ⟨key hkey, fun _ => value hvalue⟩
  | overwrite _ _ hkey hvalue => exact ⟨key hkey, fun _ => value hvalue⟩

/-- What can keep an operation from being planned: there are no operations to
spread it over, its key has no number, or its key or value is too long. -/
inductive Hindered (w : Worker) (op slot : UInt64) (kind : OpKind) (ops : UInt64) : Crash → Prop
  | spread : kind = .read ∨ kind = .update → ops = 0 →
    Hindered w op slot kind ops .remainderByZero
  | number {c : Crash} :
      2 ^ 64 ≤ w.keys.numberAt w.thread (w.seqOf op slot kind ops).toNat →
      c = .productTooLarge ∨ c = .sumTooLarge → Hindered w op slot kind ops c
  | length : ¬ w.Short kind → Hindered w op slot kind ops .lengthTooLarge

theorem hindered_of_key {c : Crash} (h : w.key (w.seqOf op slot kind ops) = .error c) :
    Hindered w op slot kind ops c := by
  rcases w.keys.key_eq_error h with ⟨overflow, cause⟩ | ⟨rfl, long⟩
  · exact .number overflow cause
  · exact .length fun short => long short.1

theorem hindered_of_value {c : Crash} (writes : kind.writes = true)
    (h : w.values.next = .error c) : Hindered w op slot kind ops c := by
  obtain ⟨rfl, long⟩ := ValueSource.long_of_next_eq_error h
  exact .length fun short => long (short.2 writes)

/-- Nothing else can keep an operation from being planned.  By the kinds of
operations, and then by the first part of the plan that fails. -/
theorem hindered_of_plan {c : Crash} (h : w.plan op slot kind ops = .error c) :
    Hindered w op slot kind ops c := by
  have spread {seq : UInt64} (h : Checked.rem (scatter op slot) ops = .ok seq) :
      seq = scatter op slot % ops := (Checked.rem_eq_ok_iff.1 h).2
  have drawn {make : Bytes → Bytes → ValueSource → Probe} (writes : kind.writes = true)
      (h : w.draw (w.seqOf op slot kind ops) make = .error c) :
          Hindered w op slot kind ops c := by
    rcases draw_eq_error h with h | h
    · exact hindered_of_key h
    · exact hindered_of_value writes h
  cases kind with
  | read =>
    rcases bind_eq_error_iff.1 h with h | ⟨seq, hseq, h⟩
    · obtain ⟨none, rfl⟩ := Checked.rem_eq_error_iff.1 h
      exact .spread (.inl rfl) none
    · obtain rfl := spread hseq
      rcases bind_eq_error_iff.1 h with h | ⟨key, -, h⟩
      · exact hindered_of_key h
      · cases h
  | insert =>
    rw [plan, planInsert_eq_draw] at h
    exact drawn rfl h
  | erase =>
    rcases bind_eq_error_iff.1 h with h | ⟨key, -, h⟩
    · exact hindered_of_key h
    · cases h
  | update =>
    rcases bind_eq_error_iff.1 h with h | ⟨seq, hseq, h⟩
    · obtain ⟨none, rfl⟩ := Checked.rem_eq_error_iff.1 h
      exact .spread (.inr rfl) none
    · obtain rfl := spread hseq
      rw [planUpdate_eq_draw] at h
      exact drawn rfl h
  | upsert =>
    have seq : w.seqOf op slot .upsert ops = if w.window.inserted = 0 ∨ scatter op slot % 2 = 0
        then w.window.inserted else w.window.inserted - 1 := rfl
    rw [plan_upsert] at h
    split at h <;> rename_i adds
    · rw [if_pos adds] at seq
      rw [planInsert_eq_draw, ← seq] at h
      exact drawn rfl h
    · rw [if_neg adds] at seq
      rw [planUpdate_eq_draw, ← seq] at h
      exact drawn rfl h

/-- If there are operations and the key has a number, then only a length can be
in the way. -/
theorem Hindered.long {c : Crash} (hindered : Hindered w op slot kind ops c) (some_ops : ops ≠ 0)
    (fits : w.keys.numberAt w.thread (w.seqOf op slot kind ops).toNat < 2 ^ 64) :
    c = .lengthTooLarge ∧ ¬ w.Short kind := by
  cases hindered with
  | spread _ none => exact absurd none some_ops
  | number overflow _ => exact absurd fits (Nat.not_lt.2 overflow)
  | length long => exact ⟨rfl, long⟩

/-- What keeps an operation from being planned is arithmetic alone: the table
and its answers have no part in it. -/
theorem Hindered.isArithmetic {c : Crash} (hindered : Hindered w op slot kind ops c) :
    c.IsArithmetic := by
  cases hindered with
  | spread _ _ => trivial
  | number _ cause =>
    rcases cause with rfl | rfl
    · trivial
    · trivial
  | length _ => trivial

end Worker

end TableProbe
