import TableProbe.Checked
import TableProbe.Generator

/-!
# Sources of values

A stream of random values of one size, fixed by its seed.
-/

namespace TableProbe

/-- A stream of random values. -/
structure ValueSource where
  /-- The length of every value. -/
  size : Nat
  generator : Generator
  deriving DecidableEq

namespace ValueSource

/-- The stream of values of the given size that starts from a seed. -/
def ofSeed (size : Nat) (seed : UInt64) : ValueSource := ⟨size, .ofSeed seed⟩

/-- The next value and the stream after it. -/
def next (source : ValueSource) : Except Crash (Bytes × ValueSource) := do
  let (value, g) := source.generator.bytes (← Checked.length source.size)
  return (value, { source with generator := g })

/-- Every value has the size that its source was made with. -/
theorem next_eq_ok {source rest : ValueSource} {value : Bytes}
    (h : source.next = .ok (value, rest)) :
    value.length = source.size ∧ rest.size = source.size := by
  obtain ⟨n, hn, h⟩ := bind_eq_ok_iff.1 h
  unfold Checked.length at hn
  split at hn
  · injection hn with hn
    injection h with h
    injection h with hv hr
    subst hn hv hr
    exact ⟨source.generator.length_bytes source.size, rfl⟩
  · cases hn

/-- The next `n` values, in order. -/
def take : Nat → ValueSource → Except Crash (List Bytes)
  | 0, _ => return []
  | n + 1, source => do
    let (value, source) ← source.next
    return value :: (← take n source)

end ValueSource

end TableProbe
