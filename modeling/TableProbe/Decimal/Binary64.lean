import TableProbe.Decimal.Fixed

/-!
# Exact values of binary floating-point numbers

A finite 64-bit floating-point number is a significand times a power of two.
Its text is made from that exact value, never from an approximation of it.
-/

namespace TableProbe.Decimal

/-- The significand of a finite number, without its sign. -/
def significand (bits : Nat) : Nat :=
  let fraction := bits % 2 ^ 52
  if bits / 2 ^ 52 % 2 ^ 11 = 0 then fraction else fraction + 2 ^ 52

/-- By how many places the significand is shifted to the left, plus 1074. -/
def shift (bits : Nat) : Nat := max (bits / 2 ^ 52 % 2 ^ 11) 1 - 1

/-- A floating-point number that is not negative, with so many decimal places. -/
def ofFloat (places : Nat) (x : Float) : String :=
  if x.isNaN then "NaN"
  else if x.isInf then "inf"
  else
    let bits := x.toBits.toNat
    fixed places (significand bits * 2 ^ shift bits) (2 ^ 1074)

end TableProbe.Decimal
