/-!
# Crashes and failures

What ends a piece of work before its regular end.  A *crash* is an abrupt stop:
arithmetic that left the range of a 64-bit counter, a division by zero, a
string of bytes that is too long, a broken invariant, or a table that crashed
while it answered.  An *error* is a refusal with a cause of its own.  `Failure`
holds one or the other, so that a caller can tell them apart: a crashed worker
is reported differently from one that returned an error.
-/

namespace TableProbe

/-- Why a piece of work stopped abruptly. -/
inductive Crash
  /-- A sum does not fit into 64 bits. -/
  | sumTooLarge
  /-- A product does not fit into 64 bits. -/
  | productTooLarge
  /-- A quotient was taken by zero. -/
  | quotientByZero
  /-- A remainder was taken by zero. -/
  | remainderByZero
  /-- A string of bytes would be longer than half of the address space. -/
  | lengthTooLarge
  /-- A duration has more whole seconds than fit into 64 bits. -/
  | durationTooLong
  /-- A worker counted more erased than inserted keys. -/
  | countersOutOfOrder
  /-- The table crashed while it answered a call. -/
  | table (message : String)
  deriving DecidableEq, Repr

/-- The text that a crash is reported with. -/
def Crash.message : Crash → String
  | sumTooLarge => "attempt to add with overflow"
  | productTooLarge => "attempt to multiply with overflow"
  | quotientByZero => "attempt to divide by zero"
  | remainderByZero => "attempt to calculate the remainder with a divisor of zero"
  | lengthTooLarge => "capacity overflow"
  | durationTooLong => "overflow in Duration::new"
  | countersOutOfOrder => "more keys erased than inserted"
  | table message => message

/-- The irregular end of a piece of work: an error with its cause, or a crash. -/
inductive Failure (ε : Type) where
  | error (cause : ε)
  | crash (crash : Crash)
  deriving DecidableEq, Repr

namespace Failure

variable {ε δ α : Type}

/-- Changes the cause of an error and keeps a crash as it is. -/
def map (f : ε → δ) : Failure ε → Failure δ
  | error cause => error (f cause)
  | crash c => crash c

/-- A computation that can only crash, seen as one that can also report errors. -/
def ofCrash : Except Crash α → Except (Failure ε) α
  | .ok a => .ok a
  | .error c => .error (.crash c)

/-- A computation that can only report errors, seen as one that can also crash. -/
def ofError : Except ε α → Except (Failure ε) α
  | .ok a => .ok a
  | .error cause => .error (.error cause)

@[simp] theorem ofCrash_ok (a : α) : (ofCrash (.ok a) : Except (Failure ε) α) = .ok a := rfl

end Failure

/-! ## Computations one after another -/

section

variable {ε α β : Type} {x : Except ε α} {f : α → Except ε β} {b : β} {e : ε}

/-- A computation in two parts succeeds if both of them do.  With
`bind_eq_error_iff` a chain of computations is taken apart part by part, and no
part has to be opened. -/
theorem bind_eq_ok_iff : x >>= f = .ok b ↔ ∃ a, x = .ok a ∧ f a = .ok b := by
  cases x with
  | error e => simp [bind, Except.bind]
  | ok a => simp [bind, Except.bind]

/-- A computation in two parts fails with the first one, or else with the
second one. -/
theorem bind_eq_error_iff :
    x >>= f = .error e ↔ x = .error e ∨ ∃ a, x = .ok a ∧ f a = .error e := by
  cases x with
  | error e => simp [bind, Except.bind]
  | ok a => simp [bind, Except.bind]

end

end TableProbe
