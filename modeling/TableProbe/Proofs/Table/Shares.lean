import Mathlib.Logic.Function.Basic
import TableProbe.Proofs.KeySpace
import TableProbe.Proofs.Script.Interleave
import TableProbe.Table.Contents

/-!
# Shares of a table

Every key belongs to one thread, so the contents of a table fall into shares,
one for each thread.  A call looks at no other share than that of its key, and
changes no other (`KeySpace.share_answer`).  This stays so if calls go wrong,
as long as what goes wrong for a thread depends on a state of its own, such as
the list of its calls so far.
-/

namespace TableProbe

/-! ## Contents by thread -/

namespace KeySpace

/-- The part of some contents that belongs to a thread. -/
def share (space : KeySpace) (thread : Nat) (c : Contents) : Contents :=
  fun key => if space.ownerOf key = thread then c key else none

/-- The call is about a key of the thread that makes it. -/
def Owns (space : KeySpace) : Actor → Call → Prop
  | .main, _ => False
  | .worker t, call => ∃ key, call.key? = some key ∧ space.ownerOf key = t.toNat

variable (space : KeySpace) {c c' : Contents} {call : Call} {key : Bytes} {thread other : Nat}

theorem share_of_owner (h : space.ownerOf key = thread) : space.share thread c key = c key :=
  if_pos h

theorem share_set_of_owner (h : space.ownerOf key = thread) (value : Option Bytes) :
    space.share thread (c.set key value) = (space.share thread c).set key value := by
  funext k
  by_cases same : k = key
  · rw [same, Contents.set_same, space.share_of_owner h, Contents.set_same]
  · rw [Contents.set_of_ne same, share, share, Contents.set_of_ne same]

/-- What is stored for the key of another thread does not show in the share of
a thread. -/
theorem share_set_of_ne (h : space.ownerOf key ≠ thread) (value : Option Bytes) :
    space.share thread (c.set key value) = space.share thread c := by
  funext k
  by_cases same : k = key
  · rw [same, share, share, if_neg h, if_neg h]
  · rw [share, share, Contents.set_of_ne same]

/-- A call is answered from the share of its key. -/
theorem share_answer (hkey : call.key? = some key) (h : space.ownerOf key = thread) :
    (Contents.answer call (space.share thread c)).1 = (Contents.answer call c).1 ∧
      (Contents.answer call (space.share thread c)).2 =
        space.share thread (Contents.answer call c).2 := by
  have here : space.share thread c key = c key := space.share_of_owner h
  cases call with
  | init => cases hkey
  | read k =>
    cases hkey
    exact ⟨congrArg Answer.found here, rfl⟩
  | insert k value =>
    cases hkey
    rw [Contents.answer_insert, Contents.answer_insert, here]
    exact ⟨rfl, (space.share_set_of_owner h _).symm⟩
  | update k value =>
    cases hkey
    rw [Contents.answer_update, Contents.answer_update, here]
    exact ⟨rfl, (space.share_set_of_owner h _).symm⟩
  | erase k =>
    cases hkey
    rw [Contents.answer_erase, Contents.answer_erase, here]
    exact ⟨rfl, (space.share_set_of_owner h _).symm⟩

/-- A call leaves all other shares as they are. -/
theorem share_answer_of_ne (hkey : call.key? = some key) (h : space.ownerOf key ≠ other) :
    space.share other (Contents.answer call c).2 = space.share other c := by
  cases call with
  | init => cases hkey
  | read k => rfl
  | insert k value =>
    cases hkey
    rw [Contents.answer_insert]
    exact space.share_set_of_ne h _
  | update k value =>
    cases hkey
    rw [Contents.answer_update]
    exact space.share_set_of_ne h _
  | erase k =>
    cases hkey
    rw [Contents.answer_erase]
    exact space.share_set_of_ne h _

/-- The shares of all threads make up the contents. -/
theorem eq_of_share_eq (h : ∀ t < space.threads.toNat, space.share t c = space.share t c') :
    c = c' := by
  funext key
  have same := congrFun (h (space.ownerOf key) (space.ownerOf_lt key)) key
  rwa [space.share_of_owner rfl, space.share_of_owner rfl] at same

/-- A share tells of the contents what there is for the keys of its thread, and
nothing else. -/
theorem share_eq_iff : space.share thread c = space.share thread c' ↔
    ∀ key, space.ownerOf key = thread → c key = c' key := by
  constructor
  · intro same key owner
    rw [← space.share_of_owner (c := c) owner, same, space.share_of_owner owner]
  · intro same
    funext key
    unfold share
    split
    · rename_i owner
      exact same key owner
    · rfl

end KeySpace

/-! ## What goes wrong for a thread -/

variable {φ : Type}

/-- What happens to one call, and the state of the faults of its thread
afterwards. -/
inductive Mischief (φ : Type) where
  /-- The call ends without the table. -/
  | strike (outcome : Outcome) (next : φ)
  /-- The table is called, and its answer passed on or changed. -/
  | pass (report : Answer → Outcome × φ)

/-- What goes wrong, for each thread, given the state of its own faults and its
call. -/
abbrev Faults (φ : Type) := UInt64 → φ → Call → Mischief φ

namespace Faults

/-- Nothing goes wrong. -/
def none : Faults Unit := fun _ _ _ => .pass fun answer => (.ok answer, ())

/-- How a call of a thread ends, and the contents and the state of the thread's
faults after it. -/
def answer (faults : Faults φ) (thread : UInt64) (call : Call) (c : Contents) (state : φ) :
    Outcome × Contents × φ :=
  match faults thread state call with
  | .strike outcome next => (outcome, c, next)
  | .pass report =>
    let (answer, c) := Contents.answer call c
    let (outcome, next) := report answer
    (outcome, c, next)

/-- A table that does what it should, but for the faults of each thread. -/
def machine (faults : Faults φ) : Machine (Contents × (UInt64 → φ)) := fun who call s =>
  match who with
  | .main => (.ok (Contents.answer call s.1).1, (Contents.answer call s.1).2, s.2)
  | .worker t =>
    let (outcome, c, next) := faults.answer t call s.1 (s.2 t)
    (outcome, c, Function.update s.2 t next)

/-- What a thread knows of such a table: its share, and the state of its
faults. -/
def view (space : KeySpace) (who : Actor) (s : Contents × (UInt64 → φ)) : Option (Contents × φ) :=
  match who with
  | .main => .none
  | .worker t => some (space.share t.toNat s.1, s.2 t)

@[simp] theorem view_worker (space : KeySpace) (t : UInt64) (s : Contents × (UInt64 → φ)) :
    view space (.worker t) s = some (space.share t.toNat s.1, s.2 t) := rfl

/-- The table as it is for one thread. -/
def part (faults : Faults φ) (who : Actor) : Machine (Option (Contents × φ)) := fun _ call s =>
  match who, s with
  | .worker t, some (c, state) =>
    let (outcome, c, next) := faults.answer t call c state
    (outcome, some (c, next))
  | _, s => (.ok .prepared, s)

variable (faults : Faults φ) (space : KeySpace) {call : Call} {key : Bytes} {t : UInt64}
  {c : Contents} {state : φ}

/-- How a call about a key of its own thread ends depends on the share of that
thread and on the state of its own faults only.  The call changes the share as
it changes the contents. -/
theorem answer_share (hkey : call.key? = some key) (h : space.ownerOf key = t.toNat) :
    faults.answer t call (space.share t.toNat c) state =
      ((faults.answer t call c state).1, space.share t.toNat (faults.answer t call c state).2.1,
        (faults.answer t call c state).2.2) := by
  obtain ⟨same, after⟩ := space.share_answer (c := c) hkey h
  unfold answer
  cases faults t state call with
  | strike outcome next => rfl
  | pass report =>
    dsimp only
    rw [same, after]

theorem share_answer_of_ne {other : Nat} (hkey : call.key? = some key)
    (h : space.ownerOf key ≠ other) :
    space.share other (faults.answer t call c state).2.1 = space.share other c := by
  unfold answer
  cases faults t state call with
  | strike outcome next => rfl
  | pass report => exact space.share_answer_of_ne hkey h

/-- Each thread gets its answers from its own part, and never changes the part
of another thread.  This is what makes the order of their turns unobservable. -/
theorem splits : faults.machine.Splits (view space) faults.part space.Owns where
  outcome {who call s} owns := by
    cases who with
    | main => cases owns
    | worker t =>
      rcases owns with ⟨key, hkey, owner⟩
      simp only [machine, part, view, faults.answer_share space hkey owner]
  mine {who call s} owns := by
    cases who with
    | main => cases owns
    | worker t =>
      rcases owns with ⟨key, hkey, owner⟩
      simp only [machine, part, view, faults.answer_share space hkey owner, Function.update_self]
  others {who other call s} owns ne := by
    cases who with
    | main => cases owns
    | worker t =>
      rcases owns with ⟨key, hkey, owner⟩
      cases other with
      | main => rfl
      | worker u =>
        have differ : u ≠ t := fun h => ne (congrArg Actor.worker h)
        have apart : space.ownerOf key ≠ u.toNat := by
          rw [owner]
          exact fun h => differ (UInt64.toNat_inj.1 h.symm)
        simp only [machine, view, faults.share_answer_of_ne space hkey apart,
          Function.update_of_ne differ]

end Faults

/-! ## A share without faults -/

/-- The table that does what it should. -/
def Contents.machine : Machine Contents :=
  fun _ call c => (.ok (answer call c).1, (answer call c).2)

/-- If nothing goes wrong, then the part of a thread is a table that does what
it should. -/
theorem Faults.part_none_follows (t : UInt64) :
    (Faults.none.part (.worker t)).Follows Contents.machine
      (fun s => (s.map Prod.fst).getD .empty) (fun s => s.isSome = true) where
  outcome {who call s} some_share := by
    cases s with
    | none => cases some_share
    | some s => rfl
  state {who call s} some_share := by
    cases s with
    | none => cases some_share
    | some s => rfl
  stays {who call s} some_share := by
    cases s with
    | none => cases some_share
    | some s => rfl

end TableProbe
