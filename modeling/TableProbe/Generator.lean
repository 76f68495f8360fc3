import TableProbe.Bytes
import TableProbe.Power

/-!
# Pseudo-random words

A generator with four words of state (xoshiro256++), seeded from one word
through SplitMix64.  All sums and products here wrap around at 64 bits.
-/

namespace TableProbe

/-- The state of a pseudo-random generator. -/
structure Generator where
  s0 : UInt64
  s1 : UInt64
  s2 : UInt64
  s3 : UInt64
  deriving DecidableEq, Repr

namespace Generator

/-- A word turned left by `n` bits, for `n` from 1 to 63. -/
def rotateLeft (w n : UInt64) : UInt64 := (w <<< n) ||| (w >>> (64 - n))

/-- The word that SplitMix64 derives from its counter. -/
def scramble (counter : UInt64) : UInt64 :=
  let z := (counter ^^^ (counter >>> 30)) * 0xbf58476d1ce4e5b9
  let z := (z ^^^ (z >>> 27)) * 0x94d049bb133111eb
  z ^^^ (z >>> 31)

/-- The distance of the counters from which two neighbouring words of a seeded
state are derived. -/
def golden : UInt64 := 0x9e3779b97f4a7c15

/-- The generator with the given seed. -/
def ofSeed (seed : UInt64) : Generator where
  s0 := scramble (seed + golden)
  s1 := scramble (seed + 2 * golden)
  s2 := scramble (seed + 3 * golden)
  s3 := scramble (seed + 4 * golden)

/-- The next word and the generator after it. -/
def next (g : Generator) : UInt64 × Generator :=
  let word := rotateLeft (g.s0 + g.s3) 23 + g.s0
  let s2 := g.s2 ^^^ g.s0
  let s3 := g.s3 ^^^ g.s1
  (word, { s0 := g.s0 ^^^ s3
           s1 := g.s1 ^^^ s2
           s2 := s2 ^^^ (g.s1 <<< 17)
           s3 := rotateLeft s3 45 })

/-- The next half word: the upper half of the next word. -/
def nextHalf (g : Generator) : UInt32 × Generator :=
  let (word, g) := g.next
  ((word >>> 32).toUInt32, g)

/-- The next `n` bytes.  Whole words are used up lowest byte first; a rest of
at most four bytes takes a half word, a longer one a word, and what is left of
it is dropped. -/
def bytes (n : Nat) (g : Generator) : Bytes × Generator :=
  if 8 ≤ n then
    let (word, g) := g.next
    let (rest, g) := bytes (n - 8) g
    (Bytes.ofWordLowFirst word ++ rest, g)
  else if 4 < n then
    let (word, g) := g.next
    ((Bytes.ofWordLowFirst word).take n, g)
  else if 0 < n then
    let (word, g) := g.nextHalf
    ((Bytes.ofHalfWordLowFirst word).take n, g)
  else
    ([], g)

theorem length_bytes (n : Nat) (g : Generator) : (g.bytes n).1.length = n := by
  fun_induction bytes n g with
  | case1 n g h word g' _ rest g'' hrest ih => simp_all
  | case2 n g h h' => simp; omega
  | case3 n g h h' => simp; omega
  | case4 n g h h' h'' => simp; omega

/-- A number below `bound`, for `0 < bound < 2 ^ 32`: the next half word scaled
down.  Where the part cut off by the scaling is close to a whole, a second half
word decides whether it is carried over. -/
def below (bound : Nat) (g : Generator) : Nat × Generator :=
  let (x, g) := g.nextHalf
  let wide := x.toNat * bound
  let high := wide / 2 ^ 32
  let low := wide % 2 ^ 32
  if 2 ^ 32 - bound < low then
    let (y, g) := g.nextHalf
    let carry := y.toNat * bound / 2 ^ 32
    (if 2 ^ 32 ≤ low + carry then high + 1 else high, g)
  else
    (high, g)

end Generator

end TableProbe
