import TableProbe.Crash
import TableProbe.Power

/-!
# Checked arithmetic on 64-bit counters

Sums, products, quotients and remainders of counters.  A result that does not
fit into 64 bits, and a zero divisor, are crashes; every other result is the
exact one, as the lemmas below each definition say.  Lengths of strings of
bytes have to leave half of all addresses free.
-/

namespace TableProbe.Checked

/-- The exact sum, or a crash if it needs more than 64 bits. -/
def add (a b : UInt64) : Except Crash UInt64 :=
  if a.toNat + b.toNat < UInt64.size then .ok (a + b) else .error .sumTooLarge

/-- The exact product, or a crash if it needs more than 64 bits. -/
def mul (a b : UInt64) : Except Crash UInt64 :=
  if a.toNat * b.toNat < UInt64.size then .ok (a * b) else .error .productTooLarge

/-- The quotient rounded down, or a crash if the divisor is zero. -/
def div (a b : UInt64) : Except Crash UInt64 :=
  if b = 0 then .error .quotientByZero else .ok (a / b)

/-- The remainder, or a crash if the divisor is zero. -/
def rem (a b : UInt64) : Except Crash UInt64 :=
  if b = 0 then .error .remainderByZero else .ok (a % b)

/-- A length, or a crash if no string of bytes can be so long. -/
def length (n : Nat) : Except Crash Nat :=
  if n < 2 ^ 63 then .ok n else .error .lengthTooLarge

variable {a b c : UInt64} {e : Crash}

/-- A sum that is computed is the exact one.  Together with `add_eq_error_iff`
this says all there is to know of a sum, so callers never open its definition. -/
theorem add_eq_ok_iff : add a b = .ok c ↔ c.toNat = a.toNat + b.toNat := by
  unfold add
  split
  · rename_i h
    have size : UInt64.size = 2 ^ 64 := rfl
    rw [Except.ok.injEq, ← UInt64.toNat_inj, UInt64.toNat_add]
    omega
  · rename_i h
    have := c.toNat_lt_size
    simp only [reduceCtorEq, false_iff]
    omega

theorem exists_add_eq_ok (h : a.toNat + b.toNat < UInt64.size) :
    ∃ c, add a b = .ok c ∧ c.toNat = a.toNat + b.toNat :=
  have sum : add a b = .ok (a + b) := if_pos h
  ⟨a + b, sum, add_eq_ok_iff.1 sum⟩

theorem add_eq_error_iff :
    add a b = .error e ↔ UInt64.size ≤ a.toNat + b.toNat ∧ e = .sumTooLarge := by
  unfold add
  split <;> rename_i h
  · simp only [reduceCtorEq, false_iff]
    omega
  · simp only [Except.error.injEq]
    exact ⟨fun h' => ⟨by omega, h'.symm⟩, fun h' => h'.2.symm⟩

theorem mul_eq_ok_iff : mul a b = .ok c ↔ c.toNat = a.toNat * b.toNat := by
  unfold mul
  split
  · rename_i h
    have size : UInt64.size = 2 ^ 64 := rfl
    rw [Except.ok.injEq, ← UInt64.toNat_inj, UInt64.toNat_mul, Nat.mod_eq_of_lt (by omega)]
    exact eq_comm
  · rename_i h
    have := c.toNat_lt_size
    simp only [reduceCtorEq, false_iff]
    omega

theorem mul_eq_error_iff :
    mul a b = .error e ↔ UInt64.size ≤ a.toNat * b.toNat ∧ e = .productTooLarge := by
  unfold mul
  split <;> rename_i h
  · simp only [reduceCtorEq, false_iff]
    omega
  · simp only [Except.error.injEq]
    exact ⟨fun h' => ⟨by omega, h'.symm⟩, fun h' => h'.2.symm⟩

theorem rem_eq_error_iff : rem a b = .error e ↔ b = 0 ∧ e = .remainderByZero := by
  unfold rem
  split <;> simp_all [eq_comm]

/-- A length fails for strings of bytes that would take half of all addresses
or more. -/
theorem length_eq_error_iff {n : Nat} :
    length n = .error e ↔ 2 ^ 63 ≤ n ∧ e = .lengthTooLarge := by
  unfold length
  split <;> rename_i h
  · simp only [reduceCtorEq, false_iff]
    omega
  · simp only [Except.error.injEq]
    exact ⟨fun h' => ⟨by omega, h'.symm⟩, fun h' => h'.2.symm⟩

end TableProbe.Checked
