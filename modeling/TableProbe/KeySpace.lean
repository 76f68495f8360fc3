import TableProbe.Bytes
import TableProbe.Checked

/-!
# Key spaces

Each thread owns the keys whose number is its own id plus a multiple of the
number of threads, so two threads never meet on a key.  Within a thread, keys
are counted by a sequence number.  A key is the number in eight bytes, highest
byte first, filled up with zeros to the key size.
-/

namespace TableProbe

/-- How sequence numbers of threads become keys. -/
structure KeySpace where
  threads : UInt64
  /-- The length of every key. -/
  size : Nat
  threads_pos : 0 < threads
  eight_le_size : 8 ≤ size
  deriving DecidableEq

/-- Why there is no key space of the wanted kind. -/
inductive KeySpaceError
  /-- No thread would own a key. -/
  | noThreads
  /-- The number of a key does not fit into it. -/
  | keysTooShort (size : Nat)
  deriving DecidableEq, Repr

/-- The text that a refused key space is reported with. -/
def KeySpaceError.message : KeySpaceError → String
  | noThreads => "Key generator needs at least one thread"
  | keysTooShort size => s!"Key size must be at least 8 bytes (got {size})"

namespace KeySpace

/-- The key space of so many threads, with keys of so many bytes. -/
def new? (threads : UInt64) (size : Nat) : Except KeySpaceError KeySpace :=
  if threads_pos : 0 < threads then
    if eight_le_size : 8 ≤ size then .ok { threads, size, threads_pos, eight_le_size }
    else .error (.keysTooShort size)
  else .error .noThreads

/-- The number of the key that a thread has at a place in its sequence. -/
def number (space : KeySpace) (seq thread : UInt64) : Except Crash UInt64 := do
  Checked.add (← Checked.mul seq space.threads) thread

/-- The key with the given number. -/
def encode (space : KeySpace) (number : UInt64) : Bytes :=
  Bytes.ofWordHighFirst number ++ List.replicate (space.size - 8) 0

/-- The key that a thread has at a place in its sequence. -/
def key (space : KeySpace) (seq thread : UInt64) : Except Crash Bytes := do
  let number ← space.number seq thread
  let _ ← Checked.length space.size
  return space.encode number

/-- The number that a key carries in its first eight bytes. -/
def numberOf (key : Bytes) : Nat := Bytes.toNatHighFirst (key.take 8)

end KeySpace

end TableProbe
