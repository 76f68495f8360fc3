/-!
# Numerals

Decimal numbers as they are written on a command line: digits, perhaps after a
sign.  Leading zeros do not count; blanks and separators are not part of a
number.
-/

namespace TableProbe.Text

/-- The value of a decimal digit. -/
def digit? (c : Char) : Option Nat :=
  if '0' ≤ c ∧ c ≤ '9' then some (c.toNat - '0'.toNat) else none

/-- The number that a sequence of digits spells; at least one digit is needed. -/
def digits? (cs : List Char) : Option Nat :=
  if cs.isEmpty then none
  else cs.foldlM (fun n c => (digit? c).map (n * 10 + ·)) 0

/-- A number that may have a plus sign. -/
def natural? (s : String) : Option Nat :=
  match s.toList with
  | '+' :: cs => digits? cs
  | cs => digits? cs

/-- A number that may have a plus or a minus sign. -/
def integer? (s : String) : Option Int :=
  match s.toList with
  | '-' :: cs => (digits? cs).map fun n => -Int.ofNat n
  | _ => (natural? s).map Int.ofNat

/-- A number below a limit, which may have a plus sign. -/
def below? (limit : Nat) (s : String) : Option Nat := (natural? s).filter (· < limit)

end TableProbe.Text
