/-!
# Byte strings

Keys and values are strings of bytes.  Numbers are written into them with eight
bytes, highest byte first for keys and lowest byte first for random values.
-/

namespace TableProbe

/-- A string of bytes.  Strings are compared byte by byte from the front. -/
abbrev Bytes := List UInt8

namespace Bytes

/-- The eight bytes of a word, highest first. -/
def ofWordHighFirst (w : UInt64) : Bytes :=
  [(56 : UInt64), 48, 40, 32, 24, 16, 8, 0].map fun shift => (w >>> shift).toUInt8

/-- The eight bytes of a word, lowest first. -/
def ofWordLowFirst (w : UInt64) : Bytes :=
  [(0 : UInt64), 8, 16, 24, 32, 40, 48, 56].map fun shift => (w >>> shift).toUInt8

/-- The four bytes of a half word, lowest first. -/
def ofHalfWordLowFirst (w : UInt32) : Bytes :=
  [(0 : UInt32), 8, 16, 24].map fun shift => (w >>> shift).toUInt8

/-- The number that a string of bytes spells, highest byte first. -/
def toNatHighFirst (bytes : Bytes) : Nat :=
  bytes.foldl (fun n b => n * 256 + b.toNat) 0

@[simp] theorem length_ofWordHighFirst (w : UInt64) : (ofWordHighFirst w).length = 8 := rfl

@[simp] theorem length_ofWordLowFirst (w : UInt64) : (ofWordLowFirst w).length = 8 := rfl

@[simp] theorem length_ofHalfWordLowFirst (w : UInt32) : (ofHalfWordLowFirst w).length = 4 := rfl

end Bytes

end TableProbe
