import TableProbe.Generator

/-!
# Shuffling

A sequence is shuffled from the front: position `i` is exchanged with a random
position at or before it.  The positions are drawn several at a time: one
random number below `m * (m + 1) * … * (m + c - 1)` holds the next `c` of them,
which are split off by division.  The positions depend on the generator alone,
never on what is shuffled.
-/

namespace TableProbe.Shuffle

/-- Extends a product of consecutive numbers, whose next factor is `next`, as
long as it stays below `2 ^ 32`; the result is the product and the first factor
that is not in it. -/
def extend (product next : Nat) : Nat × Nat :=
  if product * next < 2 ^ 32 ∧ next < 2 ^ 32 then extend (product * next) (next + 1)
  else (product, next)
termination_by 2 ^ 32 - next

/-- The longest product `m * (m + 1) * …` below `2 ^ 32`, and how many factors
it has. -/
def block (m : Nat) : Nat × Nat :=
  let (product, next) := extend m (m + 1)
  (product, next - m)

/-- The state of drawing positions. -/
structure Draw where
  /-- How many positions were drawn. -/
  drawn : Nat
  /-- The random number from which the next positions are split off. -/
  chunk : Nat
  /-- How many positions are still in it. -/
  left : Nat
  generator : Generator
  deriving DecidableEq, Repr

namespace Draw

/-- Before the first position, which is always 0 and takes nothing from the
generator. -/
def start (g : Generator) : Draw := ⟨0, 0, 1, g⟩

/-- Makes sure that the chunk holds a position, and counts it as taken. -/
def refill (d : Draw) : Draw :=
  match d.left with
  | left + 1 => { d with left := left }
  | 0 =>
    let (bound, size) := block (d.drawn + 1)
    let (chunk, g) := d.generator.below bound
    { d with chunk := chunk, left := size - 1, generator := g }

/-- The next position and the state after it.  The last position of a chunk is
what is left of it. -/
def position (d : Draw) : Nat × Draw :=
  let n := d.drawn + 1
  let d := d.refill
  if d.left = 0 then (d.chunk, { d with drawn := n })
  else (d.chunk % n, { d with drawn := n, chunk := d.chunk / n })

/-- The next `n` positions and the state after them. -/
def positions : Nat → Draw → List Nat × Draw
  | 0, d => ([], d)
  | n + 1, d =>
    let (i, d) := d.position
    let (rest, d) := positions n d
    (i :: rest, d)

end Draw

/-- Exchanges position `i` with the first listed position, position `i + 1`
with the second, and so on. -/
def exchange {α : Type} {n : Nat} (xs : Vector α n) : Nat → List Nat → Vector α n
  | _, [] => xs
  | i, j :: rest => exchange (xs.swapIfInBounds i j) (i + 1) rest

/-- Shuffles a sequence. -/
def shuffle {α : Type} {n : Nat} (xs : Vector α n) (g : Generator) : Vector α n × Generator :=
  let (positions, d) := (Draw.start g).positions n
  (exchange xs 0 positions, d.generator)

end TableProbe.Shuffle
