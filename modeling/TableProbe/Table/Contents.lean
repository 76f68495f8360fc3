import TableProbe.Table.Basic

/-!
# Contents of a table

What a table holds, seen as a function from keys to values, and what a table
that does what it should answers: this is what every backend is measured
against.
-/

namespace TableProbe

/-- What a table holds: the value of each key that is present. -/
abbrev Contents := Bytes → Option Bytes

namespace Contents

/-- Nothing at all. -/
def empty : Contents := fun _ => none

/-- The contents with one key changed. -/
def set (c : Contents) (key : Bytes) (value : Option Bytes) : Contents :=
  fun k => if k = key then value else c k

/-- What a table that does what it should answers, and its contents afterwards:
only absent keys are added, only present ones overwritten or removed, and other
keys stay as they are. -/
def answer : Call → Contents → Answer × Contents
  | .init, c => (.prepared, c)
  | .insert key value, c =>
    if (c key).isNone then (.changed true, c.set key (some value)) else (.changed false, c)
  | .read key, c => (.found (c key), c)
  | .update key value, c =>
    if (c key).isSome then (.changed true, c.set key (some value)) else (.changed false, c)
  | .erase key, c =>
    if (c key).isSome then (.changed true, c.set key none) else (.changed false, c)

/-- The table that does what it should. -/
def table : Table Contents where
  answer call c := let (a, c) := answer call c; (.ok a, c)

/-- Whether a call ended, and left the table, as it does for a table that does
what it should. -/
def Agrees (c : Contents) (call : Call) (outcome : Outcome) (after : Contents) : Prop :=
  outcome = .ok (answer call c).1 ∧ after = (answer call c).2

variable {c : Contents} {key k : Bytes} {value : Option Bytes}

@[simp] theorem set_same : c.set key value key = value := if_pos rfl

theorem set_of_ne (h : k ≠ key) : c.set key value k = c k := if_neg h

/-- A key that is given the value that it has changes nothing. -/
theorem set_eq_self (h : c key = value) : c.set key value = c := by
  funext k
  by_cases hk : k = key
  · rw [hk, set_same, h]
  · exact set_of_ne hk

/-! Each changing call gives its key a value that depends on the one before; that value is the one
before if the call does not take effect. -/

/-- An insert adds a key that is absent, and leaves a key that is present with
the value that it has. -/
theorem answer_insert (c : Contents) (key value : Bytes) :
    answer (.insert key value) c =
      (.changed (c key).isNone, c.set key (some ((c key).getD value))) := by
  cases h : c key with
  | none => simp [answer, h]
  | some old => simp [answer, h, set_eq_self h]

/-- An update gives a key that is present a new value, and does not add one
that is absent. -/
theorem answer_update (c : Contents) (key value : Bytes) :
    answer (.update key value) c =
      (.changed (c key).isSome, c.set key ((c key).map fun _ => value)) := by
  cases h : c key with
  | none => simp [answer, h, set_eq_self h]
  | some old => simp [answer, h]

theorem answer_erase (c : Contents) (key : Bytes) :
    answer (.erase key) c = (.changed (c key).isSome, c.set key none) := by
  cases h : c key with
  | none => simp [answer, h, set_eq_self h]
  | some old => simp [answer, h]

/-- A call that does not take effect changes nothing.  This is true of reads as
well, which never change anything. -/
theorem answer_of_not_holds {call : Call} {c : Contents} (h : (answer call c).1.holds = false) :
    (answer call c).2 = c := by
  cases call with
  | init => rfl
  | insert key value =>
    cases present : (c key).isNone with
    | true => simp [answer, present, Answer.holds] at h
    | false => simp [answer, present]
  | read key => rfl
  | update key value =>
    cases present : (c key).isSome with
    | true => simp [answer, present, Answer.holds] at h
    | false => simp [answer, present]
  | erase key =>
    cases present : (c key).isSome with
    | true => simp [answer, present, Answer.holds] at h
    | false => simp [answer, present]

end Contents

end TableProbe
