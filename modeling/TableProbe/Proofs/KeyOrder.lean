import TableProbe.Proofs.Worker.Plan

/-!
# Keys stand for their numbers

A key can be made if its number fits into a word and its length is one that a
string of bytes can have.  It then says its number and nothing else: the number
is read off its first eight bytes, the thread and the place in its sequence are
the remainder and the quotient of it, and keys are ordered as their numbers are
(`KeySpace.key_encodes_number`).  The order is that of strings of bytes, which
are compared from the front.
-/

namespace TableProbe

/-! ## Strings of bytes in order -/

namespace Bytes

/-- Strings of one length that come behind numbers spell greater numbers if
these are greater, or if they are the same and the strings are greater. -/
theorem foldl_lt_foldl_iff {a b : Bytes} (same : a.length = b.length) (m n : Nat) :
    a.foldl (fun n b => n * 256 + b.toNat) m < b.foldl (fun n b => n * 256 + b.toNat) n ↔
      m < n ∨ m = n ∧ a < b := by
  induction a generalizing b m n with
  | nil =>
    obtain rfl := List.length_eq_zero_iff.1 same.symm
    simp [List.lt_irrefl]
  | cons x a ih =>
    cases b with
    | nil => cases same
    | cons y b =>
      have hx : x.toNat < 256 := x.toNat_lt
      have hy : y.toNat < 256 := y.toNat_lt
      rw [List.foldl_cons, List.foldl_cons, ih (Nat.succ.inj same), List.cons_lt_cons_iff,
        UInt8.lt_iff_toNat_lt, ← UInt8.toNat_inj]
      by_cases less : a < b
      · simp only [less, and_true]
        omega
      · simp only [less, and_false, or_false]
        omega

/-- Of two strings of one length, the one that comes first spells the smaller
number. -/
theorem toNatHighFirst_lt_iff {a b : Bytes} (same : a.length = b.length) :
    toNatHighFirst a < toNatHighFirst b ↔ a < b := by
  rw [toNatHighFirst, toNatHighFirst, foldl_lt_foldl_iff same]
  simp only [Nat.lt_irrefl, true_and, false_or]

/-- What strings of one length have in common at their ends does not matter for
their order. -/
theorem append_lt_append_iff {a b : Bytes} (same : a.length = b.length) (rest : Bytes) :
    a ++ rest < b ++ rest ↔ a < b := by
  induction a generalizing b with
  | nil =>
    obtain rfl := List.length_eq_zero_iff.1 same.symm
    simp [List.lt_irrefl]
  | cons x a ih =>
    cases b with
    | nil => cases same
    | cons y b =>
      rw [List.cons_append, List.cons_append, List.cons_lt_cons_iff, List.cons_lt_cons_iff,
        ih (Nat.succ.inj same)]

end Bytes

namespace KeySpace

variable (space : KeySpace) {seq thread seq' thread' : UInt64} {key key' : Bytes}

/-- Encoded numbers are ordered as strings of bytes as the numbers themselves
are.  They have the same length, and begin with the high bytes. -/
theorem encode_lt_encode_iff (m n : UInt64) :
    space.encode m < space.encode n ↔ m.toNat < n.toNat := by
  have same : (Bytes.ofWordHighFirst m).length = (Bytes.ofWordHighFirst n).length := rfl
  rw [encode, encode, Bytes.append_lt_append_iff same, ← Bytes.toNatHighFirst_lt_iff same,
    Bytes.toNatHighFirst_ofWordHighFirst, Bytes.toNatHighFirst_ofWordHighFirst]

/-! ## When there is no key -/

/-- A number that does not fit into a word is noticed before anything else: no
bytes are allocated for such a key, however long it would be. -/
theorem key_of_overflow (overflow : 2 ^ 64 ≤ space.numberAt thread seq.toNat) :
    space.key seq thread = .error .productTooLarge ∨
      space.key seq thread = .error .sumTooLarge := by
  cases hnumber : space.number seq thread with
  | ok n =>
    have bound : n.toNat < 2 ^ 64 := n.toNat_lt
    have number := space.number_eq_ok_iff.1 hnumber
    omega
  | error c =>
    have stopped : space.key seq thread = .error c := by rw [KeySpace.key, hnumber]; rfl
    rw [stopped]
    rcases bind_eq_error_iff.1 hnumber with product | ⟨_, -, sum⟩
    · exact .inl (congrArg Except.error (Checked.mul_eq_error_iff.1 product).2)
    · exact .inr (congrArg Except.error (Checked.add_eq_error_iff.1 sum).2)

theorem key_of_long (fits : space.numberAt thread seq.toNat < 2 ^ 64)
    (long : 2 ^ 63 ≤ space.size) : space.key seq thread = .error .lengthTooLarge := by
  cases hkey : space.key seq thread with
  | ok key => exact absurd (space.key_eq_ok_iff.1 hkey).2.1 (Nat.not_lt.2 long)
  | error c => rw [(space.long_of_key_eq_error fits hkey).1]

/-- A key fails over its number exactly if the exact number does not fit into
64 bits.  The product and the sum are checked one after the other, but no
number that fits is lost by that. -/
theorem key_eq_overflow_iff :
    space.key seq thread = .error .productTooLarge ∨ space.key seq thread = .error .sumTooLarge ↔
      2 ^ 64 ≤ space.numberAt thread seq.toNat := by
  refine ⟨fun stopped => Nat.le_of_not_lt fun fits => ?_, space.key_of_overflow⟩
  rcases stopped with stopped | stopped
  · cases (space.long_of_key_eq_error fits stopped).1
  · cases (space.long_of_key_eq_error fits stopped).1

/-- A key fails over its length only if its number fits, since the number is
computed before there are any bytes. -/
theorem key_eq_long_iff : space.key seq thread = .error .lengthTooLarge ↔
    space.numberAt thread seq.toNat < 2 ^ 64 ∧ 2 ^ 63 ≤ space.size := by
  refine ⟨fun stopped => ?_, fun h => space.key_of_long h.1 h.2⟩
  have fits : space.numberAt thread seq.toNat < 2 ^ 64 := Nat.lt_of_not_le fun overflow => by
    rcases space.key_of_overflow overflow with other | other
    · rw [stopped] at other
      cases other
    · rw [stopped] at other
      cases other
  exact ⟨fits, Nat.le_of_not_lt (space.long_of_key_eq_error fits stopped).2⟩

/-! ## What a key says -/

/-- The number of a key can be read back from its bytes, and so can its place
and its thread. -/
theorem numberOf_key (h : space.key seq thread = .ok key) :
    numberOf key = space.numberAt thread seq.toNat := by
  obtain ⟨fits, -, rfl⟩ := space.key_eq_ok_iff.1 h
  exact space.numberOf_keyAt fits

theorem length_key (h : space.key seq thread = .ok key) : key.length = space.size := by
  obtain ⟨-, -, rfl⟩ := space.key_eq_ok_iff.1 h
  exact space.length_encode _

/-- Behind its number there are only zeros. -/
theorem drop_key (h : space.key seq thread = .ok key) :
    key.drop 8 = List.replicate (space.size - 8) 0 := by
  obtain ⟨-, -, rfl⟩ := space.key_eq_ok_iff.1 h
  exact List.drop_left' (Bytes.length_ofWordHighFirst _)

/-- Keys are ordered as strings of bytes as their numbers are, for any two
places of any two threads. -/
theorem key_lt_key_iff (h : space.key seq thread = .ok key)
    (h' : space.key seq' thread' = .ok key') :
    key < key' ↔ space.numberAt thread seq.toNat < space.numberAt thread' seq'.toNat := by
  obtain ⟨fits, -, rfl⟩ := space.key_eq_ok_iff.1 h
  obtain ⟨fits', -, rfl⟩ := space.key_eq_ok_iff.1 h'
  rw [keyAt, keyAt, encode_lt_encode_iff, UInt64.toNat_ofNat_of_lt' fits,
    UInt64.toNat_ofNat_of_lt' fits']

/-- Dividing the number of a key by the number of threads gives its place, and
leaves its thread. -/
theorem numberAt_divided (member : thread < space.threads) (seq : Nat) :
    space.numberAt thread seq / space.threads.toNat = seq ∧
      space.numberAt thread seq % space.threads.toNat = thread.toNat := by
  rw [UInt64.lt_iff_toNat_lt] at member
  rw [numberAt, Nat.mul_comm, Nat.mul_add_div space.toNat_threads_pos, Nat.mul_add_mod,
    Nat.div_eq_of_lt member, Nat.mod_eq_of_lt member]
  exact ⟨rfl, rfl⟩

/-- No two places have the same key, neither of one thread nor of two: place
and thread are the quotient and the remainder of the number of the key.  The
threads have to be among those of the space, or they would not be remainders. -/
theorem key_eq_key_iff (h : space.key seq thread = .ok key)
    (h' : space.key seq' thread' = .ok key') (member : thread < space.threads)
    (member' : thread' < space.threads) : key = key' ↔ seq = seq' ∧ thread = thread' := by
  constructor
  · rintro rfl
    have same : space.numberAt thread seq.toNat = space.numberAt thread' seq'.toNat :=
      (space.numberOf_key h).symm.trans (space.numberOf_key h')
    have place := (space.numberAt_divided member seq.toNat).1
    have owner := (space.numberAt_divided member seq.toNat).2
    rw [same] at place owner
    rw [(space.numberAt_divided member' seq'.toNat).1] at place
    rw [(space.numberAt_divided member' seq'.toNat).2] at owner
    exact ⟨UInt64.toNat_inj.1 place.symm, UInt64.toNat_inj.1 owner.symm⟩
  · rintro ⟨rfl, rfl⟩
    exact Except.ok.inj (h.symm.trans h')

/-- Keys are an exact encoding of places and threads.  There is no key if its
number does not fit into a word, or if it would be longer than a string of
bytes can be.  Otherwise it has the wanted length, spells its number in its
first eight bytes, and has zeros behind it.  So the place and the thread of a
key can be recovered from it, keys are equal only if both are, and the order of
keys is that of their numbers. -/
theorem key_encodes_number (threads : UInt64) (size : Nat) (some_thread : 0 < threads)
    (long : 8 ≤ size) :
    ∃ space, new? threads size = .ok space ∧
      (∀ seq thread,
        (space.key seq thread = .error .productTooLarge ∨
          space.key seq thread = .error .sumTooLarge ↔
          2 ^ 64 ≤ seq.toNat * threads.toNat + thread.toNat) ∧
        (space.key seq thread = .error .lengthTooLarge ↔
          seq.toNat * threads.toNat + thread.toNat < 2 ^ 64 ∧ 2 ^ 63 ≤ size) ∧
        ((∃ key, space.key seq thread = .ok key) ↔
          seq.toNat * threads.toNat + thread.toNat < 2 ^ 64 ∧ size < 2 ^ 63)) ∧
      (∀ seq thread key, space.key seq thread = .ok key →
        key.length = size ∧
        Bytes.toNatHighFirst (key.take 8) = seq.toNat * threads.toNat + thread.toNat ∧
        key.drop 8 = List.replicate (size - 8) 0 ∧
        (thread < threads →
          Bytes.toNatHighFirst (key.take 8) / threads.toNat = seq.toNat ∧
          Bytes.toNatHighFirst (key.take 8) % threads.toNat = thread.toNat)) ∧
      ∀ seq thread key seq' thread' key',
        space.key seq thread = .ok key → space.key seq' thread' = .ok key' →
        (thread < threads → thread' < threads → (key = key' ↔ seq = seq' ∧ thread = thread')) ∧
        (key < key' ↔
          seq.toNat * threads.toNat + thread.toNat < seq'.toNat * threads.toNat +
            thread'.toNat) := by
  let space : KeySpace := ⟨threads, size, some_thread, long⟩
  have made : new? threads size = .ok space := by
    rw [new?, dif_pos some_thread, dif_pos long]
  refine ⟨space, made, fun seq thread => ⟨space.key_eq_overflow_iff, space.key_eq_long_iff, ?_⟩,
    fun seq thread key h => ?_, fun seq thread key seq' thread' key' h h' => ?_⟩
  · constructor
    · rintro ⟨key, h⟩
      exact ⟨(space.key_eq_ok_iff.1 h).1, (space.key_eq_ok_iff.1 h).2.1⟩
    · intro h
      exact ⟨_, space.key_eq_ok_iff.2 ⟨h.1, h.2, rfl⟩⟩
  · have number : Bytes.toNatHighFirst (key.take 8) = space.numberAt thread seq.toNat :=
      space.numberOf_key h
    refine ⟨space.length_key h, number, space.drop_key h, fun member => ?_⟩
    rw [number]
    exact space.numberAt_divided member seq.toNat
  · exact ⟨space.key_eq_key_iff h h', space.key_lt_key_iff h h'⟩

/-- Keys of sixteen bytes for three threads. -/
theorem key_encodes_number_three_threads :
    (0 : UInt64) < 3 ∧ 8 ≤ 16 ∧ ∃ space, new? 3 16 = .ok space ∧
      ∀ seq thread, (∃ key, space.key seq thread = .ok key) ↔
        seq.toNat * (3 : UInt64).toNat + thread.toNat < 2 ^ 64 ∧ 16 < 2 ^ 63 := by
  obtain ⟨space, made, cases, -⟩ := key_encodes_number 3 16 (by decide) (by decide)
  exact ⟨by decide, by decide, space, made, fun seq thread => (cases seq thread).2.2⟩

/-- A key of half of all addresses cannot be made, although its number fits
into a word. -/
theorem key_refused_with_number :
    let space : KeySpace := ⟨1, 2 ^ 63, by decide, by decide⟩
    new? 1 (2 ^ 63) = .ok space ∧
      (0 : UInt64).toNat * (1 : UInt64).toNat + (0 : UInt64).toNat < 2 ^ 64 ∧
      space.key 0 0 = .error .lengthTooLarge := by
  intro space
  exact ⟨rfl, by decide, rfl⟩

end KeySpace

end TableProbe
