import TableProbe.Proofs.Table.Filled
import TableProbe.Proofs.Worker.Counters
import TableProbe.Table.Faulty

/-!
# Expectations are a perfect table's answers

A worker expects what its counters tell it.  If the table holds the keys within
the window, then a perfect table answers each planned probe as expected, with
one exception: to overwrite the newest key when all were erased
(`Worker.holds_eq_expected_iff`).  Within a replay no upsert does that
(`Worker.adds_of_upsert`).  The window moves on with the contents, as far as
the keys of the thread are concerned (`Worker.knows_advance`) and, where there
are no others, with the contents as a whole (`Worker.describes_advance`).
-/

namespace TableProbe

/-- The window is right about what there is of the keys of a thread. -/
structure Window.Describes (window : Window) (c : Contents) (space : KeySpace) (thread : UInt64) :
    Prop where
  ordered : window.erased ≤ window.inserted
  fit : ∀ i < window.inserted.toNat, space.numberAt thread i < 2 ^ 64
  fills : c.Fills space thread window.erased.toNat window.inserted.toNat

namespace Worker

variable {w : Worker} {op slot ops : UInt64} {kind : OpKind} {probe : Probe} {c : Contents}

/-- Whether a key lies in the window is a matter of numbers, as it is for the
contents. -/
theorem contains_eq_decide (window : Window) (seq : UInt64) :
    window.contains seq =
      decide (window.erased.toNat ≤ seq.toNat ∧ seq.toNat < window.inserted.toNat) := by
  rw [Bool.eq_iff_iff, Window.contains_iff, decide_eq_true_eq, UInt64.le_iff_toNat_le,
    UInt64.lt_iff_toNat_lt]

/-- The worker is right about which keys of its thread are in the table. -/
def Knows (w : Worker) (c : Contents) : Prop :=
  c.Marks w.keys w.thread w.window.erased.toNat w.window.inserted.toNat

/-- The newest key is to be overwritten, but it was erased already. -/
def Misfires (w : Worker) (op slot : UInt64) (kind : OpKind) : Prop :=
  kind = .upsert ∧ scatter op slot % 2 = 1 ∧ w.window.erased = w.window.inserted ∧
    0 < w.window.inserted

theorem not_misfires_of_adds (adds : w.Adds op slot kind) : ¬ w.Misfires op slot kind := by
  rintro ⟨rfl, odd, -, some_key⟩
  rcases adds with h | ⟨-, none | even⟩
  · cases h
  · rw [none] at some_key
    cases some_key
  · rw [even] at odd
    cases odd

/-- An upsert overwrites the newest key if there is one, and if its scattered
number is odd. -/
theorem odd_of_skips (skips : ¬ w.Adds op slot .upsert) :
    0 < w.window.inserted ∧ scatter op slot % 2 = 1 := by
  have some_key : w.window.inserted ≠ 0 := fun none => skips (.inr ⟨rfl, .inl none⟩)
  have odd : scatter op slot % 2 ≠ 0 := fun even => skips (.inr ⟨rfl, .inr even⟩)
  rw [ne_eq, ← UInt64.toNat_inj] at some_key odd
  rw [UInt64.lt_iff_toNat_lt, ← UInt64.toNat_inj]
  rw [UInt64.toNat_mod] at odd ⊢
  exact ⟨Nat.pos_of_ne_zero some_key, (Nat.mod_two_eq_zero_or_one _).resolve_left odd⟩

theorem toNat_newest {window : Window} (some_key : 0 < window.inserted) :
    (window.inserted - 1).toNat = window.inserted.toNat - 1 := by
  have one_le : (1 : UInt64) ≤ window.inserted := some_key
  exact UInt64.toNat_sub_of_le _ _ one_le

/-- A perfect table that holds what the window says answers as the worker
expects, but for a misfire. -/
theorem holds_eq_expected_iff (knows : w.Knows c) (ordered : w.window.erased ≤ w.window.inserted)
    (planned : Planned w op slot kind ops probe) :
    (Contents.answer probe.call c).1.holds = probe.expected ↔ ¬ w.Misfires op slot kind := by
  -- all but one plan are right and no misfires
  have right (hit : (Contents.answer probe.call c).1.holds = probe.expected)
      (regular : ¬ w.Misfires op slot kind) :
      (Contents.answer probe.call c).1.holds = probe.expected ↔ ¬ w.Misfires op slot kind :=
    iff_of_true hit regular
  cases planned with
  | read hkind _ hkey =>
    obtain ⟨fits, -, rfl⟩ := w.keys.key_eq_ok_iff.1 hkey
    refine right ?_ fun h => by cases hkind.symm.trans h.1
    rw [contains_eq_decide]
    exact knows.holds_read fits
  | insert adds hkey _ =>
    obtain ⟨fits, -, rfl⟩ := w.keys.key_eq_ok_iff.1 hkey
    exact right (knows.holds_insert fits) (not_misfires_of_adds adds)
  | erase hkind hkey =>
    obtain ⟨fits, -, rfl⟩ := w.keys.key_eq_ok_iff.1 hkey
    exact right (knows.holds_erase fits) fun h => by cases hkind.symm.trans h.1
  | update hkind _ hkey _ =>
    obtain ⟨fits, -, rfl⟩ := w.keys.key_eq_ok_iff.1 hkey
    refine right ?_ fun h => by cases hkind.symm.trans h.1
    rw [contains_eq_decide]
    exact knows.holds_update fits
  | overwrite hkind skips hkey _ =>
    subst hkind
    obtain ⟨fits, -, rfl⟩ := w.keys.key_eq_ok_iff.1 hkey
    obtain ⟨some_key, odd⟩ := odd_of_skips skips
    have newest := toNat_newest some_key
    dsimp only
    rw [knows.holds_update fits, decide_eq_true_eq, newest]
    have misfires : w.Misfires op slot .upsert ↔ w.window.erased = w.window.inserted :=
      ⟨fun h => h.2.2.1, fun h => ⟨rfl, odd, h, some_key⟩⟩
    rw [misfires, ← UInt64.toNat_inj]
    rw [UInt64.lt_iff_toNat_lt] at some_key
    rw [UInt64.le_iff_toNat_le] at ordered
    have zero : (0 : UInt64).toNat = 0 := rfl
    omega

/-- The worker goes on to be right when its window moves on as the contents do.
This asks nothing of the answer: a call that is planned and has a place to move
to is enough. -/
theorem knows_advance {window : Window} (knows : w.Knows c)
    (ordered : w.window.erased ≤ w.window.inserted) (planned : Planned w op slot kind ops probe)
    (advance : w.window.advance probe.move = .ok window) :
    ({ w with window } : Worker).Knows (Contents.answer probe.call c).2 := by
  cases planned with
  | read _ _ _ =>
    cases advance
    exact knows
  | insert _ hkey _ =>
    obtain ⟨fits, -, rfl⟩ := w.keys.key_eq_ok_iff.1 hkey
    obtain ⟨n, hn, rfl⟩ := Window.advance_eq_ok_iff.1 advance
    unfold Knows
    rw [hn]
    exact knows.insert ordered fits
  | erase _ hkey =>
    obtain ⟨fits, -, rfl⟩ := w.keys.key_eq_ok_iff.1 hkey
    by_cases left : w.window.erased < w.window.inserted
    · rw [if_pos left] at advance
      obtain ⟨n, hn, rfl⟩ := Window.advance_eq_ok_iff.1 advance
      unfold Knows
      rw [hn]
      exact knows.erase fits
    · rw [if_neg left] at advance
      cases advance
      rw [knows.erase_nothing fits left]
      exact knows
  | update _ _ hkey _ =>
    obtain ⟨fits, -, rfl⟩ := w.keys.key_eq_ok_iff.1 hkey
    cases advance
    exact knows.update fits
  | overwrite _ _ hkey _ =>
    obtain ⟨fits, -, rfl⟩ := w.keys.key_eq_ok_iff.1 hkey
    cases advance
    exact knows.update fits

/-- A worker that knows which keys are present knows what its calls have to
answer. -/
theorem knows_of_describes (describes : w.window.Describes c w.keys w.thread) : w.Knows c :=
  describes.fills.marks describes.fit

/-- If no upsert overwrites, then a perfect table answers as the worker
expects. -/
theorem holds_eq_expected (describes : w.window.Describes c w.keys w.thread)
    (planned : Planned w op slot kind ops probe)
    (regular : kind = .upsert → w.Adds op slot kind) :
    (Contents.answer probe.call c).1.holds = probe.expected :=
  have exactly := holds_eq_expected_iff (knows_of_describes describes) describes.ordered planned
  exactly.2 fun misfires => not_misfires_of_adds (regular misfires.1) misfires

/-- The window goes on to be right when it moves on as the contents do.  By the
kinds of calls, with the lemma on what each of them does to the keys that are
present. -/
theorem describes_advance {window' : Window} (describes : w.window.Describes c w.keys w.thread)
    (planned : Planned w op slot kind ops probe)
    (advance : w.window.advance probe.move = .ok window') :
    window'.Describes (Contents.answer probe.call c).2 w.keys w.thread := by
  rcases describes with ⟨ordered, fit, fills⟩
  cases planned with
  | read _ _ _ =>
    injection advance with same
    exact same ▸ ⟨ordered, fit, fills⟩
  | update _ _ _ _ =>
    injection advance with same
    exact same ▸ ⟨ordered, fit, fills.update _⟩
  | overwrite _ _ _ _ =>
    injection advance with same
    exact same ▸ ⟨ordered, fit, fills.update _⟩
  | insert _ hkey _ =>
    obtain ⟨fits, -, rfl⟩ := w.keys.key_eq_ok_iff.1 hkey
    have ordered' := Window.ordered_of_advance ordered advance nofun
    obtain ⟨n, hn, rfl⟩ := Window.advance_eq_ok_iff.1 advance
    refine ⟨ordered', fun i below => ?_, ?_⟩
    · rcases Nat.lt_or_eq_of_le (Nat.le_of_lt_succ (hn ▸ below)) with old | rfl
      · exact fit i old
      · exact fits
    · rw [hn]
      exact fills.insert ordered
  | erase _ hkey =>
    obtain ⟨fits, -, rfl⟩ := w.keys.key_eq_ok_iff.1 hkey
    by_cases left : w.window.erased < w.window.inserted
    · rw [if_pos left] at advance
      have ordered' := Window.ordered_of_advance ordered advance fun _ => left
      obtain ⟨n, hn, rfl⟩ := Window.advance_eq_ok_iff.1 advance
      refine ⟨ordered', fit, ?_⟩
      rw [hn]
      exact fills.erase fit left
    · rw [if_neg left] at advance
      injection advance with same
      rw [← same, (fills.marks fit).erase_nothing fits left]
      exact ⟨ordered, fit, fills⟩

/-! ## Upserts of a replay -/

/-- The factors that an operation and its slot are multiplied with are odd, so
only the last bits of both decide whether the scattered number is even.
Wrapping around at 64 bits does not change the last bit. -/
theorem toNat_scatter_mod_two (op slot : UInt64) :
    (scatter op slot).toNat % 2 = (op.toNat + slot.toNat) % 2 := by
  have first : (0x5bd1e995 : UInt64).toNat = 2 * 770241738 + 1 := rfl
  have second : (0xc6a4a7935bd1e995 : UInt64).toNat = 2 * 7156874883516396746 + 1 := rfl
  rw [scatter, UInt64.toNat_add, UInt64.toNat_mul, UInt64.toNat_mul, first, second]
  omega

/-- The number of an operation of a replay and its slot are both odd or both
even. -/
theorem scatter_even {k : Nat} (bound : k < 2 ^ 64) :
    scatter (.ofNat k) (.ofNat (k % 100)) % 2 = 0 := by
  have size : UInt64.size = 2 ^ 64 := rfl
  rw [← UInt64.toNat_inj, UInt64.toNat_mod]
  change _ % 2 = 0
  rw [toNat_scatter_mod_two, UInt64.toNat_ofNat_of_lt' (by omega),
    UInt64.toNat_ofNat_of_lt' (by omega)]
  omega

/-- So an upsert of a replay always adds a key: operation and slot are both odd
or both even, and their scattered number is even. -/
theorem adds_of_upsert {k : Nat} (bound : k < 2 ^ 64) (h : kind = .upsert) :
    w.Adds (.ofNat k) (.ofNat (k % 100)) kind :=
  .inr ⟨h, .inr (scatter_even bound)⟩

/-- Only the counter of inserted keys can overflow, since the other one never
gets ahead of it. -/
theorem isInsert_of_overflow {crash : Crash} (planned : Planned w op slot kind ops probe)
    (full : w.window.advance probe.move = .error crash) :
    probe.call.isInsert = true ∧ 2 ^ 64 ≤ w.window.inserted.toNat + 1 := by
  cases planned with
  | read _ _ _ => cases full
  | update _ _ _ _ => cases full
  | overwrite _ _ _ _ => cases full
  | insert _ _ _ => exact ⟨rfl, (Window.advance_eq_error_iff.1 full).1⟩
  | erase _ _ =>
    by_cases left : w.window.erased < w.window.inserted
    · rw [if_pos left] at full
      exact absurd full (Window.advance_erased_ne_error left)
    · rw [if_neg left] at full
      cases full

end Worker

end TableProbe
