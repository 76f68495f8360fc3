import TableProbe.Decimal.Rounding
import TableProbe.Power

/-!
# Decimal text

Numbers with a fixed number of decimal places, and whole numbers with their
digits in groups of three.
-/

namespace TableProbe.Decimal

/-- The last `n` digits of a number, with zeros in front where it is shorter. -/
def lastDigits : Nat → Nat → List Char
  | 0, _ => []
  | n + 1, value => lastDigits n (value / 10) ++ [Nat.digitChar (value % 10)]

/-- The quotient `num / den` with so many decimal places, rounded to the
nearest such number. -/
def fixed (places num den : Nat) : String :=
  let scaled := roundHalfEven (num * 10 ^ places) den
  if places = 0 then toString scaled
  else toString (scaled / 10 ^ places) ++ "." ++ String.ofList (lastDigits places scaled)

/-- The groups of three digits of a number, the lowest last; only the first one
may be shorter. -/
def groups (n : Nat) : List String :=
  if n < 1000 then [toString n]
  else groups (n / 1000) ++ [String.ofList (lastDigits 3 n)]

/-- A whole number with its digits in groups of three. -/
def grouped (n : Nat) : String := "_".intercalate (groups n)

end TableProbe.Decimal
