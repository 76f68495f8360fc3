import TableProbe.Checked
import TableProbe.OpKind

/-!
# Percentages of an operation mix

How many of every hundred operations are of each kind.  A mix is usable if its
percentages sum to 100.
-/

namespace TableProbe

/-- The share of every operation kind in a mix, in percent. -/
structure Percentages where
  reads : UInt64
  inserts : UInt64
  erases : UInt64
  updates : UInt64
  upserts : UInt64
  deriving DecidableEq, Repr

/-- The percentages of a mix do not sum to 100. -/
structure WrongTotal where
  /-- What they sum to. -/
  got : UInt64
  deriving DecidableEq, Repr

/-- The text that a wrong total is reported with. -/
def WrongTotal.message (e : WrongTotal) : String :=
  s!"Operation mix percentages must sum to 100 (got {e.got})"

namespace Percentages

/-- The percentage of one kind. -/
def of (p : Percentages) : OpKind → UInt64
  | .read => p.reads
  | .insert => p.inserts
  | .erase => p.erases
  | .update => p.updates
  | .upsert => p.upserts

/-- The sum of all percentages, taken from left to right. -/
def total (p : Percentages) : Except Crash UInt64 := do
  let sum ← Checked.add p.reads p.inserts
  let sum ← Checked.add sum p.erases
  let sum ← Checked.add sum p.updates
  Checked.add sum p.upserts

/-- The exact sum of all percentages. -/
def exactTotal (p : Percentages) : Nat :=
  p.reads.toNat + p.inserts.toNat + p.erases.toNat + p.updates.toNat + p.upserts.toNat

/-- The percentages are added one after another, and each of the sums is
checked; if all of them fit into 64 bits, then the last one is the exact total. -/
theorem toNat_of_total_eq_ok {p : Percentages} {n : UInt64} (h : p.total = .ok n) :
    n.toNat = p.exactTotal := by
  obtain ⟨a, ha, h⟩ := bind_eq_ok_iff.1 h
  obtain ⟨b, hb, h⟩ := bind_eq_ok_iff.1 h
  obtain ⟨c, hc, h⟩ := bind_eq_ok_iff.1 h
  rw [Checked.add_eq_ok_iff] at ha hb hc h
  rw [h, hc, hb, ha, exactTotal]

/-- A mix has a total if its exact sum fits into 64 bits. -/
theorem exists_total_eq_ok {p : Percentages} (h : p.exactTotal < UInt64.size) :
    ∃ n, p.total = .ok n := by
  unfold exactTotal at h
  obtain ⟨a, ha, ha'⟩ := Checked.exists_add_eq_ok (a := p.reads) (b := p.inserts) (by omega)
  obtain ⟨b, hb, hb'⟩ := Checked.exists_add_eq_ok (a := a) (b := p.erases) (by omega)
  obtain ⟨c, hc, hc'⟩ := Checked.exists_add_eq_ok (a := b) (b := p.updates) (by omega)
  obtain ⟨d, hd, -⟩ := Checked.exists_add_eq_ok (a := c) (b := p.upserts) (by omega)
  exact ⟨d, by simp only [total, ha, hb, hc, hd, bind, Except.bind]⟩

end Percentages

end TableProbe
