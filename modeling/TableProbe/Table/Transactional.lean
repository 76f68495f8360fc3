import Std.Data.ExtTreeMap
import TableProbe.Table.Contents

/-!
# Transactional table

A named table in a database.  Every writing call is a transaction that opens
the table, creates it if need be, looks at the key and then writes; a reading
call only opens the table, and fails as long as the table was not created.
-/

namespace TableProbe

/-- A database with at most one table. -/
structure Transactional where
  /-- The entries of the table, once it was created. -/
  entries? : Option (Std.ExtTreeMap Bytes Bytes)

namespace Transactional

/-- The database without a table. -/
def empty : Transactional := ⟨none⟩

/-- The entries that a writing transaction finds when it opens the table. -/
def opened (t : Transactional) : Std.ExtTreeMap Bytes Bytes := t.entries?.getD ∅

/-- What the table holds; a table that was not created holds nothing. -/
def contents (t : Transactional) : Contents := fun key => t.opened[key]?

/-- How a call ends, and the database after it. -/
def answer : Call → Transactional → Outcome × Transactional
  | .init, t => (.ok .prepared, ⟨some t.opened⟩)
  | .insert key value, t =>
    let present := t.opened[key]?.isSome
    (.ok (.changed !present),
      ⟨some (if present then t.opened else t.opened.insert key value)⟩)
  | .read key, t =>
    match t.entries? with
    | none => (.error (.error .missing), t)
    | some entries => (.ok (.found entries[key]?), t)
  | .update key value, t =>
    let present := t.opened[key]?.isSome
    (.ok (.changed present), ⟨some (if present then t.opened.insert key value else t.opened)⟩)
  | .erase key, t => (.ok (.changed t.opened[key]?.isSome), ⟨some (t.opened.erase key)⟩)

/-- The database as a table under test. -/
def table : Table Transactional := ⟨answer⟩

@[simp] theorem opened_some (entries : Std.ExtTreeMap Bytes Bytes) :
    (Transactional.mk (some entries)).opened = entries := rfl

/-- Creating the table changes nothing in what it holds. -/
@[simp] theorem contents_some_opened (t : Transactional) :
    (Transactional.mk (some t.opened)).contents = t.contents := rfl

@[simp] theorem contents_empty : empty.contents = Contents.empty := by
  funext key
  simp [contents, opened, empty, Contents.empty]

/-- Every call but a read leaves a created table, whether it takes effect or
not. -/
theorem isSome_entries?_answer {call : Call} (h : ∀ key, call ≠ .read key) (t : Transactional) :
    (t.answer call).2.entries?.isSome := by
  cases call with
  | read key => exact absurd rfl (h key)
  | init => rfl
  | insert key value => rfl
  | update key value => rfl
  | erase key => rfl

/-- A created table stays. -/
theorem isSome_entries?_answer_of_isSome {call : Call} {t : Transactional}
    (h : t.entries?.isSome) : (t.answer call).2.entries?.isSome := by
  cases call with
  | read key =>
    obtain ⟨entries, he⟩ := Option.isSome_iff_exists.1 h
    simp [answer, he]
  | init => rfl
  | insert key value => rfl
  | update key value => rfl
  | erase key => rfl

/-- The database does what a table should, save for reads of a table that was
not created. -/
theorem answer_agrees {call : Call} {t : Transactional}
    (h : t.entries?.isSome ∨ ∀ key, call ≠ .read key) :
    t.contents.Agrees call (t.answer call).1 (t.answer call).2.contents := by
  cases call with
  | init => exact ⟨rfl, rfl⟩
  | read key =>
    obtain ⟨entries, he⟩ := Option.isSome_iff_exists.1 (h.resolve_right fun h => h key rfl)
    simp [Contents.Agrees, Contents.answer, answer, contents, opened, he]
  | insert key value =>
    rw [Contents.Agrees, Contents.answer_insert]
    cases h : t.opened[key]? with
    | none =>
      refine ⟨by simp [answer, contents, h], funext fun k => ?_⟩
      by_cases hk : k = key
      · simp [answer, contents, h, hk]
      · simp [answer, contents, h, Contents.set_of_ne hk, Std.ExtTreeMap.getElem?_insert,
          Ne.symm hk]
    | some old =>
      refine ⟨by simp [answer, contents, h], ?_⟩
      simp [answer, contents, h, Contents.set_eq_self]
  | update key value =>
    rw [Contents.Agrees, Contents.answer_update]
    cases h : t.opened[key]? with
    | none =>
      refine ⟨by simp [answer, contents, h], ?_⟩
      simp [answer, contents, h, Contents.set_eq_self]
    | some old =>
      refine ⟨by simp [answer, contents, h], funext fun k => ?_⟩
      by_cases hk : k = key
      · simp [answer, contents, h, hk]
      · simp [answer, contents, h, Contents.set_of_ne hk, Std.ExtTreeMap.getElem?_insert,
          Ne.symm hk]
  | erase key =>
    rw [Contents.Agrees, Contents.answer_erase]
    refine ⟨by simp [answer, contents], funext fun k => ?_⟩
    by_cases hk : k = key
    · simp [answer, contents, opened, hk]
    · simp [answer, contents, opened, Contents.set_of_ne hk, Std.ExtTreeMap.getElem?_erase,
        Ne.symm hk]

end Transactional

end TableProbe
