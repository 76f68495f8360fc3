import Std.Data.ExtTreeMap
import TableProbe.Table.Contents

/-!
# Ordered table

A table on a search tree, with keys in the order of their bytes.  A call looks
for the place of its key and fills, changes or clears it.
-/

namespace TableProbe

/-- A search tree from keys to values. -/
structure Ordered where
  entries : Std.ExtTreeMap Bytes Bytes

namespace Ordered

/-- The empty table. -/
def empty : Ordered := ⟨∅⟩

/-- What the table holds. -/
def contents (t : Ordered) : Contents := fun key => t.entries[key]?

/-- How a call ends, and the table after it. -/
def answer : Call → Ordered → Outcome × Ordered
  | .init, t => (.ok .prepared, t)
  | .insert key value, t =>
    let (before, entries) := t.entries.getThenInsertIfNew? key value
    (.ok (.changed before.isNone), ⟨entries⟩)
  | .read key, t => (.ok (.found t.entries[key]?), t)
  | .update key value, t =>
    if t.entries.contains key then
      (.ok (.changed true), ⟨t.entries.alter key fun _ => some value⟩)
    else (.ok (.changed false), t)
  | .erase key, t => (.ok (.changed t.entries[key]?.isSome), ⟨t.entries.erase key⟩)

/-- The search tree as a table under test. -/
def table : Table Ordered := ⟨answer⟩

@[simp] theorem contents_empty : empty.contents = Contents.empty := by
  funext key
  simp [contents, empty, Contents.empty]

/-- The search tree does what a table should. -/
theorem answer_agrees (call : Call) (t : Ordered) :
    t.contents.Agrees call (t.answer call).1 (t.answer call).2.contents := by
  cases call with
  | init => exact ⟨rfl, rfl⟩
  | read key => exact ⟨rfl, rfl⟩
  | insert key value =>
    rw [Contents.Agrees, Contents.answer_insert]
    refine ⟨by simp [answer, contents], funext fun k => ?_⟩
    by_cases hk : k = key
    · subst hk
      simp only [answer, contents, Std.ExtTreeMap.getThenInsertIfNew?_snd, Contents.set_same,
        Std.ExtTreeMap.getElem?_insertIfNew, Std.ExtTreeMap.mem_iff_isSome_getElem?]
      cases t.entries[k]? <;> simp
    · simp [answer, contents, Contents.set_of_ne hk, Std.ExtTreeMap.getElem?_insertIfNew,
        Ne.symm hk]
  | update key value =>
    rw [Contents.Agrees, Contents.answer_update]
    cases h : t.entries[key]? with
    | none =>
      refine ⟨by simp [answer, contents, Std.ExtTreeMap.contains_eq_isSome_getElem?, h], ?_⟩
      simp [answer, Std.ExtTreeMap.contains_eq_isSome_getElem?, contents, Contents.set_eq_self, h]
    | some old =>
      refine ⟨by simp [answer, contents, Std.ExtTreeMap.contains_eq_isSome_getElem?, h],
        funext fun k => ?_⟩
      by_cases hk : k = key
      · simp [answer, contents, Std.ExtTreeMap.contains_eq_isSome_getElem?, h, hk]
      · simp [answer, contents, Std.ExtTreeMap.contains_eq_isSome_getElem?, h,
          Contents.set_of_ne hk, Std.ExtTreeMap.getElem?_alter, Ne.symm hk]
  | erase key =>
    rw [Contents.Agrees, Contents.answer_erase]
    refine ⟨by simp [answer, contents], funext fun k => ?_⟩
    by_cases hk : k = key
    · simp [answer, contents, hk]
    · simp [answer, contents, Contents.set_of_ne hk, Std.ExtTreeMap.getElem?_erase, Ne.symm hk]

end Ordered

end TableProbe
