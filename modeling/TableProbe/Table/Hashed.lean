import Std.Data.ExtHashMap
import TableProbe.Power
import TableProbe.Table.Contents

/-!
# Hash table

A table on a hash map.  Room for the expected number of entries is set aside at
the start, up to a limit; a key's entry is found once and then left, filled,
overwritten or taken out.
-/

namespace TableProbe

/-- A hash map from keys to values. -/
structure Hashed where
  /-- The number of entries for which room is set aside. -/
  reserved : UInt64
  entries : Std.ExtHashMap Bytes Bytes

namespace Hashed

/-- The largest number of entries for which room is set aside. -/
def maxReserved : UInt64 := .ofNat (2 ^ 25)

/-- The number of entries for which room is set aside if so many are expected;
a larger table grows on demand. -/
def reserve (capacity : UInt64) : UInt64 := min capacity maxReserved

/-- The empty table for an expected number of entries. -/
def ofCapacity (capacity : UInt64) : Hashed := ⟨reserve capacity, ∅⟩

/-- What the table holds. -/
def contents (t : Hashed) : Contents := fun key => t.entries[key]?

/-- How a call ends, and the table after it. -/
def answer : Call → Hashed → Outcome × Hashed
  | .init, t => (.ok .prepared, t)
  | .insert key value, t =>
    let (present, entries) := t.entries.containsThenInsertIfNew key value
    (.ok (.changed !present), { t with entries })
  | .read key, t => (.ok (.found t.entries[key]?), t)
  | .update key value, t =>
    (.ok (.changed (t.entries.contains key)),
      { t with entries := t.entries.modify key fun _ => value })
  | .erase key, t =>
    (.ok (.changed (t.entries.contains key)), { t with entries := t.entries.erase key })

/-- The hash table as a table under test. -/
def table : Table Hashed := ⟨answer⟩

@[simp] theorem contents_ofCapacity (capacity : UInt64) :
    (ofCapacity capacity).contents = Contents.empty := by
  funext key
  simp [contents, ofCapacity, Contents.empty]

/-- The hash table does what a table should. -/
theorem answer_agrees (call : Call) (t : Hashed) :
    t.contents.Agrees call (t.answer call).1 (t.answer call).2.contents := by
  cases call with
  | init => exact ⟨rfl, rfl⟩
  | read key => exact ⟨rfl, rfl⟩
  | insert key value =>
    rw [Contents.Agrees, Contents.answer_insert]
    refine ⟨by simp [answer, contents], funext fun k => ?_⟩
    by_cases hk : k = key
    · subst hk
      simp only [answer, contents, Std.ExtHashMap.containsThenInsertIfNew_snd, Contents.set_same,
        Std.ExtHashMap.getElem?_insertIfNew, Std.ExtHashMap.mem_iff_isSome_getElem?]
      cases t.entries[k]? <;> simp
    · simp [answer, contents, Contents.set_of_ne hk, Std.ExtHashMap.getElem?_insertIfNew,
        Ne.symm hk]
  | update key value =>
    rw [Contents.Agrees, Contents.answer_update]
    refine ⟨by simp [answer, contents], funext fun k => ?_⟩
    by_cases hk : k = key
    · simp [answer, contents, hk]
    · simp [answer, contents, Contents.set_of_ne hk, Std.ExtHashMap.getElem?_modify, Ne.symm hk]
  | erase key =>
    rw [Contents.Agrees, Contents.answer_erase]
    refine ⟨by simp [answer, contents], funext fun k => ?_⟩
    by_cases hk : k = key
    · simp [answer, contents, hk]
    · simp [answer, contents, Contents.set_of_ne hk, Std.ExtHashMap.getElem?_erase, Ne.symm hk]

end Hashed

end TableProbe
