import Std.Data.ExtTreeMap
import TableProbe.Table.Contents

/-!
# Swapping table

A table on a store that offers three atomic steps on a key: exchange its value
if it is still the expected one, replace it by a function of itself, and remove
it.  Adding a key is an exchange that expects it to be absent.
-/

namespace TableProbe

/-- A store with atomic steps on keys. -/
structure Swapping where
  entries : Std.ExtTreeMap Bytes Bytes

namespace Swapping

/-- The empty store. -/
def empty : Swapping := ⟨∅⟩

/-- Gives a key a value, or none. -/
def put (t : Swapping) (key : Bytes) (value : Option Bytes) : Swapping :=
  ⟨t.entries.alter key fun _ => value⟩

/-- Exchanges the value of a key for another if it is the expected one, and
says whether it was. -/
def compareAndSwap (t : Swapping) (key : Bytes) (expected new : Option Bytes) : Bool × Swapping :=
  if t.entries[key]? = expected then (true, t.put key new) else (false, t)

/-- Replaces the value of a key by a function of it, and returns what it was
before. -/
def fetchAndUpdate (t : Swapping) (key : Bytes) (change : Option Bytes → Option Bytes) :
    Option Bytes × Swapping :=
  (t.entries[key]?, t.put key (change t.entries[key]?))

/-- Removes a key and returns what its value was. -/
def remove (t : Swapping) (key : Bytes) : Option Bytes × Swapping :=
  (t.entries[key]?, ⟨t.entries.erase key⟩)

/-- What the table holds. -/
def contents (t : Swapping) : Contents := fun key => t.entries[key]?

/-- How a call ends, and the store after it. -/
def answer : Call → Swapping → Outcome × Swapping
  | .init, t => (.ok .prepared, t)
  | .insert key value, t =>
    let (swapped, t) := t.compareAndSwap key none (some value)
    (.ok (.changed swapped), t)
  | .read key, t => (.ok (.found t.entries[key]?), t)
  | .update key value, t =>
    let (before, t) := t.fetchAndUpdate key fun old => old.map fun _ => value
    (.ok (.changed before.isSome), t)
  | .erase key, t =>
    let (before, t) := t.remove key
    (.ok (.changed before.isSome), t)

/-- The store as a table under test. -/
def table : Table Swapping := ⟨answer⟩

@[simp] theorem contents_empty : empty.contents = Contents.empty := by
  funext key
  simp [contents, empty, Contents.empty]

/-- The store does what a table should. -/
theorem answer_agrees (call : Call) (t : Swapping) :
    t.contents.Agrees call (t.answer call).1 (t.answer call).2.contents := by
  cases call with
  | init => exact ⟨rfl, rfl⟩
  | read key => exact ⟨rfl, rfl⟩
  | insert key value =>
    rw [Contents.Agrees, Contents.answer_insert]
    cases h : t.entries[key]? with
    | none =>
      refine ⟨by simp [answer, contents, compareAndSwap, h], funext fun k => ?_⟩
      by_cases hk : k = key
      · simp [answer, contents, compareAndSwap, put, h, hk]
      · simp [answer, contents, compareAndSwap, put, h, Contents.set_of_ne hk,
          Std.ExtTreeMap.getElem?_alter, Ne.symm hk]
    | some old =>
      refine ⟨by simp [answer, contents, compareAndSwap, h], ?_⟩
      simp [answer, contents, compareAndSwap, h, Contents.set_eq_self]
  | update key value =>
    rw [Contents.Agrees, Contents.answer_update]
    refine ⟨by simp [answer, contents, fetchAndUpdate, put], funext fun k => ?_⟩
    by_cases hk : k = key
    · simp [answer, contents, fetchAndUpdate, put, hk]
    · simp [answer, contents, fetchAndUpdate, put, Contents.set_of_ne hk,
        Std.ExtTreeMap.getElem?_alter, Ne.symm hk]
  | erase key =>
    rw [Contents.Agrees, Contents.answer_erase]
    refine ⟨by simp [answer, contents, remove], funext fun k => ?_⟩
    by_cases hk : k = key
    · simp [answer, contents, remove, hk]
    · simp [answer, contents, remove, Contents.set_of_ne hk, Std.ExtTreeMap.getElem?_erase,
        Ne.symm hk]

end Swapping

end TableProbe
