import TableProbe.Config

/-!
# Accepted configurations

Settings are asked ten things in a row, and the first one that does not hold is
the reason for which they are refused (`Config.ofSettings_eq`).  So it is known
exactly which settings are accepted, and which numbers are derived from them
(`Config.accepts_exactly`); in particular there is a thread to work, and the
numbers of a run stay well below the range of a word
(`Config.bounds_of_ofSettings`).
-/

namespace TableProbe.Config

variable {s : Settings} {c : Config}

/-! ## What settings are asked -/

/-- What settings are asked, in order, each with the reason for a refusal if it
does not hold. -/
def requirements (s : Settings) : List (Bool × ConfigError) :=
  [(s.mix.reads ≤ 100, .percentageTooLarge "reads"),
    (s.mix.inserts ≤ 100, .percentageTooLarge "inserts"),
    (s.mix.erases ≤ 100, .percentageTooLarge "erases"),
    (s.mix.updates ≤ 100, .percentageTooLarge "updates"),
    (s.mix.upserts ≤ 100, .percentageTooLarge "upserts"),
    (s.prefill ≤ 100, .percentageTooLarge "prefill"),
    (s.mix.exactTotal = 100, .wrongTotal ⟨.ofNat s.mix.exactTotal⟩),
    (0 < s.threads, .noThreads),
    (s.capacityExponent < 64, .capacityTooLarge s.capacityExponent),
    (2 ^ s.capacityExponent.toNat * s.totalOps.toNat < 2 ^ 64,
      .tooManyOps s.totalOps s.capacityExponent)]

/-- The numbers of a run, without any limit on what comes up on the way. -/
def derived (s : Settings) : Config where
  mix := s.mix
  initialCapacity := .ofNat (2 ^ s.capacityExponent.toNat)
  totalOps := .ofNat (2 ^ s.capacityExponent.toNat * s.totalOps.toNat / 100)
  prefillElems := .ofNat (2 ^ s.capacityExponent.toNat * s.prefill.toNat / 100)
  threads := s.threads

/-- A configuration, unless something that is asked does not hold; the first
such thing is reported. -/
def unlessRefused (asked : List (Bool × ConfigError)) (c : Config) :
    Except (Failure ConfigError) Config :=
  match asked.find? fun r => !r.1 with
  | none => .ok c
  | some r => .error (.error r.2)

/-- One requirement is checked before all others. -/
theorem require_bind {holds : Bool} {e : ConfigError} {asked : List (Bool × ConfigError)}
    {rest : Except (Failure ConfigError) Config}
    (later : holds = true → rest = unlessRefused asked c) :
    (require holds e >>= fun _ => rest) = unlessRefused ((holds, e) :: asked) c := by
  cases holds with
  | false => rfl
  | true => exact later rfl

/-- The checks of all percentages have one form, and differ in the name that a
refusal gives. -/
theorem checkPercentage_eq (name : String) (value : UInt64) :
    checkPercentage name value = require (value ≤ 100) (.percentageTooLarge name) := by
  unfold checkPercentage require
  by_cases small : value ≤ 100
  · rw [if_neg (UInt64.not_lt.2 small), if_pos (decide_eq_true small)]
  · rw [if_pos (UInt64.not_le.1 small), if_neg (by rw [decide_eq_false small]; decide)]

/-! ## The derived numbers -/

/-- A power of two whose exponent is small enough. -/
theorem toNat_one_shiftLeft {e : UInt32} (h : e < 64) :
    ((1 : UInt64) <<< e.toUInt64).toNat = 2 ^ e.toNat := by
  have small : e.toNat < 64 := UInt32.lt_iff_toNat_lt.1 h
  have power : 2 ^ e.toNat < 2 ^ 64 := Nat.pow_lt_pow_right (by decide) small
  have one : (1 : UInt64).toNat = 1 := rfl
  rw [UInt64.toNat_shiftLeft, UInt32.toNat_toUInt64, Nat.mod_eq_of_lt small, one,
    Nat.shiftLeft_eq, Nat.one_mul, Nat.mod_eq_of_lt power]

/-- The capacity has the value of its power, and so has the product if it fits. -/
theorem derived_eq {product : UInt64} (exponent : s.capacityExponent < 64)
    (fits : product.toNat = 2 ^ s.capacityExponent.toNat * s.totalOps.toNat) :
    Config.mk s.mix (1 <<< s.capacityExponent.toUInt64) (product / 100)
      (hundredths (1 <<< s.capacityExponent.toUInt64) s.prefill) s.threads = derived s := by
  have capacity := toNat_one_shiftLeft exponent
  have hundred : (100 : UInt64).toNat = 100 := rfl
  have whole : (1 : UInt64) <<< s.capacityExponent.toUInt64 =
      .ofNat (2 ^ s.capacityExponent.toNat) := by
    rw [← capacity, UInt64.ofNat_toNat]
  have ops : product / 100 = .ofNat (2 ^ s.capacityExponent.toNat * s.totalOps.toNat / 100) := by
    rw [← fits, ← hundred, ← UInt64.toNat_div, UInt64.ofNat_toNat]
  rw [derived, hundredths, capacity, whole, ops]

/-- Settings lead to the derived numbers, unless they are refused for the first
thing that does not hold. -/
theorem ofSettings_eq (s : Settings) :
    ofSettings s = unlessRefused (requirements s) (derived s) := by
  unfold ofSettings requirements
  simp only [checkPercentage_eq]
  refine require_bind fun reads => require_bind fun inserts => require_bind fun erases =>
    require_bind fun updates => require_bind fun upserts => require_bind fun prefill => ?_
  have bounded {value : UInt64} (small : decide (value ≤ 100) = true) : value.toNat ≤ 100 :=
    UInt64.le_iff_toNat_le.1 (of_decide_eq_true small)
  -- five percentages of at most 100 have a sum that fits
  obtain ⟨total, summed⟩ := s.mix.exists_total_eq_ok (by
    have size : UInt64.size = 2 ^ 64 := rfl
    have := bounded reads
    have := bounded inserts
    have := bounded erases
    have := bounded updates
    have := bounded upserts
    unfold Percentages.exactTotal
    omega)
  have exact := Percentages.toNat_of_total_eq_ok summed
  have enough : decide (total = 100) = decide (s.mix.exactTotal = 100) := by
    rw [← exact]
    exact decide_eq_decide.2 UInt64.toNat_inj.symm
  rw [summed, ← exact, UInt64.ofNat_toNat, exact, ← enough]
  refine require_bind fun _ => require_bind fun _ => require_bind fun exponent => ?_
  have exponent := of_decide_eq_true exponent
  have capacity := toNat_one_shiftLeft exponent
  cases product : Checked.mul (1 <<< s.capacityExponent.toUInt64) s.totalOps with
  | error crash =>
    obtain ⟨large, -⟩ := Checked.mul_eq_error_iff.1 product
    rw [capacity] at large
    have refused : decide (2 ^ s.capacityExponent.toNat * s.totalOps.toNat < 2 ^ 64) = false :=
      decide_eq_false (Nat.not_lt.2 large)
    rw [refused]
    rfl
  | ok hundredfold =>
    have fits := Checked.mul_eq_ok_iff.1 product
    rw [capacity] at fits
    have accepted : decide (2 ^ s.capacityExponent.toNat * s.totalOps.toNat < 2 ^ 64) = true :=
      decide_eq_true (fits ▸ hundredfold.toNat_lt)
    rw [accepted]
    exact congrArg Except.ok (derived_eq exponent fits)

/-! ## Which settings are accepted -/

theorem unlessRefused_eq_ok_iff {asked : List (Bool × ConfigError)} {d : Config} :
    unlessRefused asked c = .ok d ↔ (∀ r ∈ asked, r.1 = true) ∧ d = c := by
  unfold unlessRefused
  cases first : asked.find? fun r => !r.1 with
  | none =>
    have all : ∀ r ∈ asked, r.1 = true := by simpa using first
    rw [Except.ok.injEq]
    exact ⟨fun same => ⟨all, same.symm⟩, fun h => h.2.symm⟩
  | some r =>
    have fails : r.1 = false := by simpa using List.find?_some first
    refine ⟨fun same => (by cases same), fun h => ?_⟩
    rw [h.1 r (List.mem_of_find?_eq_some first)] at fails
    cases fails

/-- What is reported is the first thing that does not hold: all things asked
before it do, and those after it play no part. -/
theorem unlessRefused_eq_error_iff {asked : List (Bool × ConfigError)} {f : Failure ConfigError} :
    unlessRefused asked c = .error f ↔ ∃ before e after,
      asked = before ++ (false, e) :: after ∧ (∀ r ∈ before, r.1 = true) ∧ f = .error e := by
  have first (e : ConfigError) : asked.find? (fun r => !r.1) = some (false, e) ↔
      ∃ before after, asked = before ++ (false, e) :: after ∧ ∀ r ∈ before, r.1 = true := by
    simp [List.find?_eq_some_iff_append]
  unfold unlessRefused
  constructor
  · intro same
    cases found : asked.find? fun r => !r.1 with
    | none =>
      rw [found] at same
      cases same
    | some r =>
      rw [found] at same
      obtain ⟨holds, e⟩ := r
      have fails : holds = false := by simpa using List.find?_some found
      subst fails
      obtain ⟨before, after, split, hold⟩ := (first e).1 found
      exact ⟨before, e, after, split, hold, (Except.error.inj same).symm⟩
  · rintro ⟨before, e, after, split, hold, rfl⟩
    rw [(first e).2 ⟨before, after, split, hold⟩]

/-- What is asked of settings, said in numbers. -/
theorem requirements_hold_iff : (∀ r ∈ requirements s, r.1 = true) ↔
    s.mix.reads ≤ 100 ∧ s.mix.inserts ≤ 100 ∧ s.mix.erases ≤ 100 ∧ s.mix.updates ≤ 100 ∧
      s.mix.upserts ≤ 100 ∧ s.prefill ≤ 100 ∧ s.mix.exactTotal = 100 ∧ 0 < s.threads ∧
      s.capacityExponent < 64 ∧ 2 ^ s.capacityExponent.toNat * s.totalOps.toNat < 2 ^ 64 := by
  simp only [requirements, List.forall_mem_cons, List.not_mem_nil, false_imp_iff, implies_true,
    and_true, decide_eq_true_eq]

/-- Settings that meet all requirements are accepted, and no others are.  The
numbers that come of them are the exact ones: nothing on the way to them can be
too large. -/
theorem ofSettings_eq_ok_iff :
    ofSettings s = .ok c ↔ (∀ r ∈ requirements s, r.1 = true) ∧ c = derived s := by
  rw [ofSettings_eq, unlessRefused_eq_ok_iff]

/-- The numbers of accepted settings are exact.  What the requirements say
about capacity and percentages bounds each sum and product that leads to them. -/
theorem toNat_derived (hold : ∀ r ∈ requirements s, r.1 = true) :
    (derived s).initialCapacity.toNat = 2 ^ s.capacityExponent.toNat ∧
      (derived s).totalOps.toNat = 2 ^ s.capacityExponent.toNat * s.totalOps.toNat / 100 ∧
      (derived s).prefillElems.toNat = 2 ^ s.capacityExponent.toNat * s.prefill.toNat / 100 ∧
      (derived s).prefillElems.toNat ≤ 2 ^ s.capacityExponent.toNat := by
  obtain ⟨-, -, -, -, -, prefill, -, -, exponent, fits⟩ := requirements_hold_iff.1 hold
  have size : UInt64.size = 2 ^ 64 := rfl
  have power : 2 ^ s.capacityExponent.toNat < 2 ^ 64 :=
    Nat.pow_lt_pow_right (by decide) (UInt32.lt_iff_toNat_lt.1 exponent)
  have product :=
    Nat.mul_le_mul_left (2 ^ s.capacityExponent.toNat) (UInt64.le_iff_toNat_le.1 prefill)
  have hundred : (100 : UInt64).toNat = 100 := rfl
  rw [hundred] at product
  refine ⟨UInt64.toNat_ofNat_of_lt' (by omega), UInt64.toNat_ofNat_of_lt' (by omega), ?_⟩
  have elems :
      (derived s).prefillElems.toNat = 2 ^ s.capacityExponent.toNat * s.prefill.toNat / 100 :=
    UInt64.toNat_ofNat_of_lt' (by omega)
  exact ⟨elems, by omega⟩

/-- Bounds of the numbers of a run, as far as all other modules need them: how
many threads there are, and how many keys and operations. -/
theorem bounds_of_ofSettings (h : ofSettings s = .ok c) :
    0 < c.threads ∧ c.prefillElems.toNat ≤ 2 ^ 63 ∧ c.totalOps.toNat * 100 < 2 ^ 64 := by
  obtain ⟨hold, rfl⟩ := ofSettings_eq_ok_iff.1 h
  obtain ⟨-, -, -, -, -, -, -, threads, exponent, fits⟩ := requirements_hold_iff.1 hold
  obtain ⟨-, ops, -, elems⟩ := toNat_derived hold
  have power : 2 ^ s.capacityExponent.toNat ≤ 2 ^ 63 :=
    Nat.pow_le_pow_right (by decide) (Nat.le_of_lt_succ (UInt32.lt_iff_toNat_lt.1 exponent))
  exact ⟨threads, Nat.le_trans elems power, by omega⟩

/-- Settings are accepted exactly if everything that is asked holds, and the
numbers derived from them are then the exact ones, rounded down.  Otherwise
they are refused for the first thing that does not hold, in the order in which
it is asked, and nothing that is computed on the way leaves its range. -/
theorem accepts_exactly (s : Settings) :
    let capacity := 2 ^ s.capacityExponent.toNat
    ((∃ c, ofSettings s = .ok c) ↔
      s.mix.reads ≤ 100 ∧ s.mix.inserts ≤ 100 ∧ s.mix.erases ≤ 100 ∧ s.mix.updates ≤ 100 ∧
        s.mix.upserts ≤ 100 ∧ s.prefill ≤ 100 ∧ s.mix.exactTotal = 100 ∧ 0 < s.threads ∧
        s.capacityExponent < 64 ∧ capacity * s.totalOps.toNat < 2 ^ 64) ∧
      (∀ f, ofSettings s = .error f ↔ ∃ before e after,
        requirements s = before ++ (false, e) :: after ∧ (∀ r ∈ before, r.1 = true) ∧
          f = .error e) ∧
      (∀ crash, ofSettings s ≠ .error (.crash crash)) ∧
      ∀ c, ofSettings s = .ok c →
        c.initialCapacity.toNat = capacity ∧
        c.totalOps.toNat = capacity * s.totalOps.toNat / 100 ∧
        c.prefillElems.toNat = capacity * s.prefill.toNat / 100 ∧
        c.prefillElems ≤ c.initialCapacity ∧
        c.totalOps.toNat ≤ (2 ^ 64 - 1) / 100 ∧
        c.mix = s.mix ∧ c.threads = s.threads := by
  intro capacity
  have refused (f : Failure ConfigError) : ofSettings s = .error f ↔ ∃ before e after,
      requirements s = before ++ (false, e) :: after ∧ (∀ r ∈ before, r.1 = true) ∧
        f = .error e := by
    rw [ofSettings_eq, unlessRefused_eq_error_iff]
  refine ⟨?_, refused, fun crash crashed => ?_, fun c accepted => ?_⟩
  · rw [← requirements_hold_iff]
    exact ⟨fun ⟨c, accepted⟩ => (ofSettings_eq_ok_iff.1 accepted).1,
      fun hold => ⟨_, ofSettings_eq_ok_iff.2 ⟨hold, rfl⟩⟩⟩
  · obtain ⟨_, e, _, -, -, same⟩ := (refused _).1 crashed
    cases same
  · have bounds := bounds_of_ofSettings accepted
    obtain ⟨hold, rfl⟩ := ofSettings_eq_ok_iff.1 accepted
    obtain ⟨initial, ops, elems, below⟩ := toNat_derived hold
    refine ⟨initial, ops, elems, ?_, by omega, rfl, rfl⟩
    rw [UInt64.le_iff_toNat_le, initial]
    exact below

end TableProbe.Config
