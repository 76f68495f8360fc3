import TableProbe.Proofs.KeySpace
import TableProbe.Table.Contents

/-!
# Contents filled with the keys of a thread

What a perfect table answers is easy to say if, of the keys of one thread, it
holds those from one place up to another: a call takes effect according to
where its place lies, and an insert at the upper end or an erase at the lower
one moves that end by one.  `Contents.Marks` says nothing of keys of other
threads, and nothing of places whose numbers do not fit into a word;
`Contents.Fills` says that there are no other keys at all.
-/

namespace TableProbe.Contents

/-- Of the keys of a thread whose numbers fit into a word, those from one place
up to another are present. -/
def Marks (c : Contents) (space : KeySpace) (thread : UInt64) (first last : Nat) : Prop :=
  ∀ seq, space.numberAt thread seq < 2 ^ 64 →
    ((c (space.keyAt thread seq)).isSome ↔ first ≤ seq ∧ seq < last)

/-- Exactly the keys of a thread from one place up to another are present. -/
def Fills (c : Contents) (space : KeySpace) (thread : UInt64) (first last : Nat) : Prop :=
  ∀ key, (c key).isSome ↔ ∃ seq, first ≤ seq ∧ seq < last ∧ key = space.keyAt thread seq

variable {c : Contents} {space : KeySpace} {thread : UInt64} {first last seq : Nat}
  {value : Bytes}

namespace Marks

/-- Nothing at all are the keys from a place up to itself. -/
theorem of_empty (space : KeySpace) (thread : UInt64) (place : Nat) :
    empty.Marks space thread place place := by
  intro seq _
  constructor
  · intro present
    cases present
  · intro within
    exact absurd within.1 (Nat.not_le_of_lt within.2)

/-- As long as the present keys are those of a window, the place of a key
decides whether it is found.  It decides on updates in the same way. -/
theorem holds_read (marks : c.Marks space thread first last)
    (fits : space.numberAt thread seq < 2 ^ 64) :
    (answer (.read (space.keyAt thread seq)) c).1.holds = decide (first ≤ seq ∧ seq < last) := by
  rw [Bool.eq_iff_iff, decide_eq_true_eq, ← marks seq fits]
  rfl

theorem holds_update (marks : c.Marks space thread first last)
    (fits : space.numberAt thread seq < 2 ^ 64) :
    (answer (.update (space.keyAt thread seq) value) c).1.holds =
      decide (first ≤ seq ∧ seq < last) := by
  rw [Bool.eq_iff_iff, decide_eq_true_eq, ← marks seq fits, answer_update]
  rfl

/-- The key at the end of the window is absent, so an insert of it takes
effect. -/
theorem holds_insert (marks : c.Marks space thread first last)
    (fits : space.numberAt thread last < 2 ^ 64) :
    (answer (.insert (space.keyAt thread last) value) c).1.holds = true := by
  have absent : ¬ (c (space.keyAt thread last)).isSome := fun h =>
    Nat.lt_irrefl _ ((marks last fits).1 h).2
  simp only [answer_insert, Answer.holds]
  simpa using absent

/-- The key at the start of the window is there unless the window is empty. -/
theorem holds_erase (marks : c.Marks space thread first last)
    (fits : space.numberAt thread first < 2 ^ 64) :
    (answer (.erase (space.keyAt thread first)) c).1.holds = decide (first < last) := by
  rw [Bool.eq_iff_iff, decide_eq_true_eq, answer_erase]
  exact (marks first fits).trans ⟨fun h => h.2, fun h => ⟨Nat.le_refl _, h⟩⟩

/-- One key is given a value or taken away, and the ends move accordingly. -/
theorem set {first' last' : Nat} {new : Option Bytes} (marks : c.Marks space thread first last)
    (fits : space.numberAt thread seq < 2 ^ 64)
    (moved : ∀ i, first' ≤ i ∧ i < last' ↔
      if i = seq then new.isSome = true else first ≤ i ∧ i < last) :
    (c.set (space.keyAt thread seq) new).Marks space thread first' last' := by
  intro i hi
  rw [moved i]
  by_cases here : i = seq
  · rw [here, set_same, if_pos rfl]
  · have other : space.keyAt thread i ≠ space.keyAt thread seq := fun same =>
      here ((space.keyAt_inj hi fits).1 same)
    rw [set_of_ne other, if_neg here]
    exact marks i hi

/-- An update takes no key away and adds none, so the same keys stay present. -/
theorem update (marks : c.Marks space thread first last)
    (fits : space.numberAt thread seq < 2 ^ 64) :
    (answer (.update (space.keyAt thread seq) value) c).2.Marks space thread first last := by
  rw [answer_update]
  refine marks.set fits fun i => ?_
  split
  · rename_i here
    rw [here, Option.isSome_map]
    exact (marks seq fits).symm
  · exact Iff.rfl

/-- An insert of the key at the end of the window moves that end on by one
place. -/
theorem insert (marks : c.Marks space thread first last) (ordered : first ≤ last)
    (fits : space.numberAt thread last < 2 ^ 64) :
    (answer (.insert (space.keyAt thread last) value) c).2.Marks space thread first
      (last + 1) := by
  rw [answer_insert]
  refine marks.set fits fun i => ?_
  split
  · rename_i here
    exact ⟨fun _ => rfl, fun _ => by omega⟩
  · omega

/-- An erase of the key at the start moves the start on by one place.  If the
window was empty, then its start is behind its end now, and it is still empty. -/
theorem erase (marks : c.Marks space thread first last)
    (fits : space.numberAt thread first < 2 ^ 64) :
    (answer (.erase (space.keyAt thread first)) c).2.Marks space thread (first + 1) last := by
  rw [answer_erase]
  refine marks.set fits fun i => ?_
  split
  · rename_i here
    exact ⟨fun within => by omega, fun none => by cases none⟩
  · omega

/-- Nothing is there to be erased: the window is empty, and the contents stay
as they are. -/
theorem erase_nothing (marks : c.Marks space thread first last)
    (fits : space.numberAt thread first < 2 ^ 64) (empty : ¬ first < last) :
    (answer (.erase (space.keyAt thread first)) c).2 = c := by
  have absent : ¬ (c (space.keyAt thread first)).isSome :=
    fun h => empty ((marks first fits).1 h).2
  rw [answer, if_neg absent]

end Marks

namespace Fills

theorem of_empty (space : KeySpace) (thread : UInt64) (place : Nat) :
    empty.Fills space thread place place := by
  intro key
  constructor
  · intro h
    cases h
  · rintro ⟨seq, above, below, -⟩
    exact absurd above (Nat.not_le_of_lt below)

/-- If exactly the keys of a window are present, and have numbers, then they
are the ones that are present of all keys with numbers. -/
theorem marks (fills : c.Fills space thread first last)
    (fit : ∀ i < last, space.numberAt thread i < 2 ^ 64) : c.Marks space thread first last := by
  intro seq fits
  rw [fills]
  constructor
  · rintro ⟨other, above, below, same⟩
    rw [(space.keyAt_inj fits (fit other below)).1 same]
    exact ⟨above, below⟩
  · intro within
    exact ⟨seq, within.1, within.2, rfl⟩

/-- A key that is there may get another value; which keys are present does not
change by that. -/
theorem overwrite (fills : c.Fills space thread first last) {key : Bytes}
    (present : (c key).isSome) : (c.set key (some value)).Fills space thread first last := by
  intro k
  by_cases hk : k = key
  · rw [hk, set_same, ← fills key]
    exact ⟨fun _ => present, fun _ => rfl⟩
  · rw [set_of_ne hk]
    exact fills k

theorem update (fills : c.Fills space thread first last) (key : Bytes) :
    (answer (.update key value) c).2.Fills space thread first last := by
  by_cases present : (c key).isSome
  · rw [answer, if_pos present]
    exact fills.overwrite present
  · rw [answer, if_neg present]
    exact fills

theorem insert (fills : c.Fills space thread first last) (ordered : first ≤ last) :
    (answer (.insert (space.keyAt thread last) value) c).2.Fills space thread first
      (last + 1) := by
  intro k
  simp only [answer_insert]
  by_cases hk : k = space.keyAt thread last
  · rw [hk, set_same]
    exact ⟨fun _ => ⟨last, ordered, Nat.lt_succ_self _, rfl⟩, fun _ => rfl⟩
  · rw [set_of_ne hk, fills k]
    constructor
    · rintro ⟨i, above, below, rfl⟩
      exact ⟨i, above, Nat.lt_succ_of_lt below, rfl⟩
    · rintro ⟨i, above, below, rfl⟩
      exact ⟨i, above, Nat.lt_of_le_of_ne (Nat.le_of_lt_succ below) fun h => hk (h ▸ rfl), rfl⟩

/-- An erase of the key at the start moves the start on by one place.  Here all
keys up to the end have to have numbers: two places with one key would be
emptied together. -/
theorem erase (fills : c.Fills space thread first last)
    (fit : ∀ i < last, space.numberAt thread i < 2 ^ 64) (left : first < last) :
    (answer (.erase (space.keyAt thread first)) c).2.Fills space thread (first + 1) last := by
  intro k
  simp only [answer_erase]
  by_cases hk : k = space.keyAt thread first
  · rw [hk, set_same]
    refine ⟨fun h => (by cases h), ?_⟩
    rintro ⟨i, above, below, same⟩
    have := (space.keyAt_inj (fit first left) (fit i below)).1 same
    omega
  · rw [set_of_ne hk, fills k]
    constructor
    · rintro ⟨i, above, below, rfl⟩
      exact ⟨i, Nat.lt_of_le_of_ne above fun h => hk (h ▸ rfl), below, rfl⟩
    · rintro ⟨i, above, below, rfl⟩
      exact ⟨i, Nat.le_of_succ_le above, below, rfl⟩

end Fills

end TableProbe.Contents
