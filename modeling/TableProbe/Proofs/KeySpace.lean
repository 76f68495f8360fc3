import TableProbe.KeySpace

/-!
# Keys and their numbers

A key carries its number in its first eight bytes (`KeySpace.numberOf_encode`),
and the number of a key leaves the id of its thread when it is divided by the
number of threads.  So keys of two threads differ, and so do two keys of one
thread, as long as no number leaves 64 bits.
-/

namespace TableProbe

/-! ## Words as bytes -/

/-- The bytes of a word are the digits of its number to the base 256. -/
theorem toNat_toUInt8_shiftRight (w shift : UInt64) (h : shift.toNat < 64) :
    (w >>> shift).toUInt8.toNat = w.toNat / 2 ^ shift.toNat % 256 := by
  rw [UInt64.toNat_toUInt8, UInt64.toNat_shiftRight, Nat.mod_eq_of_lt h,
    Nat.shiftRight_eq_div_pow]

/-- Eight bytes, highest first, spell the word that they were taken from. -/
theorem Bytes.toNatHighFirst_ofWordHighFirst (w : UInt64) :
    toNatHighFirst (ofWordHighFirst w) = w.toNat := by
  have bound : w.toNat < 2 ^ 64 := w.toNat_lt
  simp only [toNatHighFirst, ofWordHighFirst, List.map_cons, List.map_nil, List.foldl_cons,
    List.foldl_nil]
  rw [toNat_toUInt8_shiftRight w 56 (by decide), toNat_toUInt8_shiftRight w 48 (by decide),
    toNat_toUInt8_shiftRight w 40 (by decide), toNat_toUInt8_shiftRight w 32 (by decide),
    toNat_toUInt8_shiftRight w 24 (by decide), toNat_toUInt8_shiftRight w 16 (by decide),
    toNat_toUInt8_shiftRight w 8 (by decide), toNat_toUInt8_shiftRight w 0 (by decide)]
  simp only [UInt64.reduceToNat]
  omega

theorem Checked.length_eq_ok_iff {n m : Nat} : length n = .ok m ↔ n < 2 ^ 63 ∧ m = n := by
  unfold length
  split <;> rename_i h
  · rw [Except.ok.injEq]
    exact ⟨fun eq => ⟨h, eq.symm⟩, fun eq => eq.2.symm⟩
  · exact ⟨fun eq => (by cases eq), fun eq => absurd eq.1 h⟩

namespace KeySpace

variable (space : KeySpace) {seq thread n : UInt64} {key : Bytes}

/-- A number can be read back from the bytes that it is encoded in; the zeros
before them add nothing to it. -/
theorem numberOf_encode (n : UInt64) : numberOf (space.encode n) = n.toNat := by
  rw [numberOf, encode, List.take_left' (Bytes.length_ofWordHighFirst n),
    Bytes.toNatHighFirst_ofWordHighFirst]

theorem length_encode (n : UInt64) : (space.encode n).length = space.size := by
  have := space.eight_le_size
  rw [encode, List.length_append, List.length_replicate, Bytes.length_ofWordHighFirst]
  omega

theorem toNat_threads_pos : 0 < space.threads.toNat := space.threads_pos

/-! ## The key at a place of a thread -/

/-- The number of the key that a thread has at a place in its sequence, however
large it is. -/
def numberAt (thread : UInt64) (seq : Nat) : Nat := seq * space.threads.toNat + thread.toNat

/-- The key with that number; only a number of at most 64 bits is that of a
key. -/
def keyAt (thread : UInt64) (seq : Nat) : Bytes :=
  space.encode (.ofNat (space.numberAt thread seq))

/-- The number of the thread that owns a key. -/
def ownerOf (key : Bytes) : Nat := numberOf key % space.threads.toNat

theorem numberAt_injective (thread : UInt64) : Function.Injective (space.numberAt thread) :=
  fun _ _ h => Nat.eq_of_mul_eq_mul_right space.toNat_threads_pos (Nat.add_right_cancel h)

theorem numberOf_keyAt {thread : UInt64} {seq : Nat} (fits : space.numberAt thread seq < 2 ^ 64) :
    numberOf (space.keyAt thread seq) = space.numberAt thread seq := by
  rw [keyAt, numberOf_encode, UInt64.toNat_ofNat_of_lt' fits]

/-- Keys of one thread that do not overflow are as different as their places,
since their numbers can be read back from them. -/
theorem keyAt_inj {thread : UInt64} {seq other : Nat} (fits : space.numberAt thread seq < 2 ^ 64)
    (fits' : space.numberAt thread other < 2 ^ 64) :
    space.keyAt thread seq = space.keyAt thread other ↔ seq = other := by
  constructor
  · intro h
    apply space.numberAt_injective thread
    rw [← space.numberOf_keyAt fits, h, space.numberOf_keyAt fits']
  · intro h
    rw [h]

/-- The owner of a key is the thread that makes it: the numbers of a thread
leave its own number when they are divided by the number of threads. -/
theorem ownerOf_keyAt {thread : UInt64} {seq : Nat} (fits : space.numberAt thread seq < 2 ^ 64)
    (member : thread < space.threads) :
    space.ownerOf (space.keyAt thread seq) = thread.toNat := by
  rw [ownerOf, space.numberOf_keyAt fits, numberAt, Nat.mul_add_mod_self_right]
  exact Nat.mod_eq_of_lt member

theorem ownerOf_lt (key : Bytes) : space.ownerOf key < space.threads.toNat :=
  Nat.mod_lt _ space.toNat_threads_pos

/-- The number of a key is computed exactly if it fits into 64 bits.  A product
and a sum are checked on the way, but the product is not larger than the
number. -/
theorem number_eq_ok_iff :
    space.number seq thread = .ok n ↔ n.toNat = space.numberAt thread seq.toNat := by
  rw [number, bind_eq_ok_iff, numberAt]
  constructor
  · rintro ⟨product, hproduct, hsum⟩
    rw [Checked.add_eq_ok_iff.1 hsum, Checked.mul_eq_ok_iff.1 hproduct]
  · intro h
    have bound : n.toNat < UInt64.size := n.toNat_lt_size
    have product : Checked.mul seq space.threads = .ok (seq * space.threads) := if_pos (by omega)
    exact ⟨_, product, Checked.add_eq_ok_iff.2 (by rw [Checked.mul_eq_ok_iff.1 product, h])⟩

/-- A key is made exactly if its number fits into 64 bits and its length is one
that a string of bytes can have; then it is the one with that number. -/
theorem key_eq_ok_iff : space.key seq thread = .ok key ↔
    space.numberAt thread seq.toNat < 2 ^ 64 ∧ space.size < 2 ^ 63 ∧
      key = space.keyAt thread seq.toNat := by
  have size : UInt64.size = 2 ^ 64 := rfl
  rw [KeySpace.key, bind_eq_ok_iff]
  constructor
  · rintro ⟨n, hn, h⟩
    obtain ⟨length, hlength, h⟩ := bind_eq_ok_iff.1 h
    have number := space.number_eq_ok_iff.1 hn
    refine ⟨number ▸ n.toNat_lt, (Checked.length_eq_ok_iff.1 hlength).1, ?_⟩
    rw [keyAt, ← number, UInt64.ofNat_toNat]
    injection h with h
    exact h.symm
  · rintro ⟨fits, short, rfl⟩
    refine ⟨.ofNat (space.numberAt thread seq.toNat), ?_, ?_⟩
    · rw [number_eq_ok_iff, UInt64.toNat_ofNat_of_lt' fits]
    · exact bind_eq_ok_iff.2 ⟨_, Checked.length_eq_ok_iff.2 ⟨short, rfl⟩, rfl⟩

end KeySpace

end TableProbe
