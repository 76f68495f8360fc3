/-!
# Rounding a quotient

A quotient is rounded to the nearest whole number; a tie goes to the even one.
-/

namespace TableProbe.Decimal

/-- The whole number nearest to `num / den`, for `0 < den`; of two equally near
ones the even one. -/
def roundHalfEven (num den : Nat) : Nat :=
  let whole := num / den
  let rest := 2 * (num % den)
  if rest < den then whole
  else if den < rest then whole + 1
  else whole + whole % 2

end TableProbe.Decimal
