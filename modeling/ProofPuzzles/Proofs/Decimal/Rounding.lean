import Mathlib.Algebra.Order.Group.Nat
import Mathlib.Data.Nat.Log
import Mathlib.Order.Iterate

/-! # Rounding to double precision

Numbers that are not negative are counted here in units that are so small that sums and products of
two numbers are whole numbers of them. What is rounded is then a function on the whole numbers. It
is monotone, it leaves what can be held as it is, and it is what the shifts of mantissas come to.
-/

namespace ProofPuzzles.Decimal

open Float.Model Float.Model.UnpackedFloat

variable {m n k c : Nat} {e : Int}

/-! ## Shifts -/

/-- A mantissa and the two bits behind it, in quarters. -/
def quarters (em : ExtendedMantissa) : Nat :=
  4 * em.mantissa + 2 * em.roundBit.toNat + em.stickyBit.toNat

/-- Half of a number of quarters. Whatever is smaller than a quarter counts as one. -/
def halve (n : Nat) : Nat := 2 * (n / 4) + min 1 (n % 4)

/-- The whole number that is nearest to a number of quarters, of two the even one. -/
def nearestEven (n : Nat) : Nat := (n + 1 + n / 4 % 2) / 4

/-- A number without its last bits, rounded. -/
def roundedShift (n k : Nat) : Nat := nearestEven (halve^[k] (4 * n))

theorem quarters_shiftRightOne (em : ExtendedMantissa) :
    quarters em.shiftRightOne = halve (quarters em) := by
  obtain ⟨m, roundBit, stickyBit⟩ := em
  have bit : (m % 2 != 0).toNat = m % 2 := by
    rcases Nat.mod_two_eq_zero_or_one m with even | odd
    · simp [even]
    · simp [odd]
  simp only [quarters, halve, ExtendedMantissa.shiftRightOne, bit]
  cases roundBit <;> cases stickyBit <;> simp <;> omega

theorem quarters_shiftRight (em : ExtendedMantissa) (k : Nat) :
    quarters (em >>> k) = halve^[k] (quarters em) := by
  induction k with
  | zero => rfl
  | succ k ih =>
      rw [Function.iterate_succ_apply', ← ih, ← quarters_shiftRightOne]
      rfl

theorem roundedMantissa_eq (em : ExtendedMantissa) :
    em.roundedMantissa = nearestEven (quarters em) := by
  obtain ⟨m, roundBit, stickyBit⟩ := em
  have whole : (4 * m + 2 * roundBit.toNat + stickyBit.toNat) / 4 = m := by
    have := roundBit.toNat_le
    have := stickyBit.toNat_le
    omega
  rw [quarters, nearestEven, whole]
  have parity := Nat.mod_two_eq_zero_or_one m
  cases roundBit <;> cases stickyBit <;>
    simp only [ExtendedMantissa.roundedMantissa, ExtendedMantissa.accuracy,
      Accuracy.roundToNearestEven, Bool.toNat_true, Bool.toNat_false] <;> omega

theorem roundedMantissa_shiftRight (n k : Nat) :
    (ExtendedMantissa.ofMantissaAndAccuracy n .exact >>> k).roundedMantissa =
      roundedShift n k := by
  rw [roundedMantissa_eq, quarters_shiftRight]
  rfl

theorem halve_mono : Monotone halve := by
  intro m n le
  simp only [halve]
  omega

theorem nearestEven_bounds (n : Nat) : n / 4 ≤ nearestEven n ∧ nearestEven n ≤ n / 4 + 1 := by
  have parity := Nat.mod_two_eq_zero_or_one (n / 4)
  simp only [nearestEven]
  omega

theorem nearestEven_mono : Monotone nearestEven := by
  intro m n le
  rcases Nat.lt_or_ge (m / 4) (n / 4) with less | same
  · exact Nat.le_trans (nearestEven_bounds m).2 (Nat.le_trans less (nearestEven_bounds n).1)
  · have equal : m / 4 = n / 4 := Nat.le_antisymm (Nat.div_le_div_right le) same
    rw [nearestEven, nearestEven, equal]
    omega

theorem roundedShift_mono (le : m ≤ n) : roundedShift m k ≤ roundedShift n k :=
  nearestEven_mono (halve_mono.iterate k (Nat.mul_le_mul_left 4 le))

theorem roundedShift_zero (n : Nat) : roundedShift n 0 = n := by
  simp only [roundedShift, nearestEven, Function.iterate_zero, id_eq]
  omega

/-- Zeros at the end are lost first. -/
theorem roundedShift_mul_two_pow_add (n k j : Nat) :
    roundedShift (n * 2 ^ j) (k + j) = roundedShift n k := by
  induction j with
  | zero => simp
  | succ j ih =>
      have half : halve (4 * (n * 2 ^ (j + 1))) = 4 * (n * 2 ^ j) := by
        rw [Nat.pow_succ, ← Nat.mul_assoc n]
        simp only [halve]
        omega
      rw [← ih, roundedShift, roundedShift, ← Nat.add_assoc, Function.iterate_succ_apply, half]

theorem roundedShift_mul_two_pow (n k : Nat) : roundedShift (n * 2 ^ k) k = n := by
  have exact := roundedShift_mul_two_pow_add n 0 k
  rwa [Nat.zero_add, roundedShift_zero] at exact

theorem roundedShift_le (le : n ≤ c * 2 ^ k) : roundedShift n k ≤ c :=
  Nat.le_trans (roundedShift_mono le) (Nat.le_of_eq (roundedShift_mul_two_pow c k))

theorem le_roundedShift (le : c * 2 ^ k ≤ n) : c ≤ roundedShift n k :=
  Nat.le_trans (Nat.le_of_eq (roundedShift_mul_two_pow c k).symm) (roundedShift_mono le)

/-! ## Rounding whole numbers -/

/-- The units of a mantissa with an exponent. The least exponent is `-1074`, and a product of two
numbers has at least twice that. -/
def units (m : Nat) (e : Int) : Nat := m * 2 ^ (e + 2148).toNat

/-- How many bits a number of units loses. -/
def lostBits (n : Nat) : Nat := max (n.log2 - 52) 1074

/-- The number of units that is held instead. -/
def rounded (n : Nat) : Nat := roundedShift n (lostBits n) * 2 ^ lostBits n

theorem log2_mono (le : m ≤ n) : m.log2 ≤ n.log2 := by
  rw [Nat.log2_eq_log_two, Nat.log2_eq_log_two]
  exact Nat.log_mono_right le

theorem log2_mul_two_pow (positive : 0 < n) (k : Nat) : (n * 2 ^ k).log2 = n.log2 + k := by
  induction k with
  | zero => simp
  | succ k ih =>
      have nonzero : n * 2 ^ k ≠ 0 := Nat.ne_of_gt (Nat.mul_pos positive (Nat.two_pow_pos k))
      rw [Nat.pow_succ', Nat.mul_left_comm, Nat.log2_two_mul nonzero, ih]
      rfl

theorem rounded_mono : Monotone rounded := by
  intro m n le
  have logs := log2_mono le
  rcases Nat.lt_or_ge (lostBits m) (lostBits n) with fewer | same
  · -- the power of two below the larger number can be held, and the smaller one is below it
    have lost : lostBits n = n.log2 - 52 ∧ 52 ≤ n.log2 ∧ lostBits m ≤ n.log2 ∧ m.log2 < n.log2 := by
      simp only [lostBits] at fewer ⊢
      omega
    have nonzero : n ≠ 0 := by
      rintro rfl
      simp at lost
    have power (j : Nat) (le : j ≤ n.log2) : 2 ^ n.log2 = 2 ^ (n.log2 - j) * 2 ^ j := by
      rw [← Nat.pow_add, Nat.sub_add_cancel le]
    calc rounded m ≤ 2 ^ n.log2 := by
          rw [power (lostBits m) lost.2.2.1]
          refine Nat.mul_le_mul_right _ (roundedShift_le ?_)
          rw [← power (lostBits m) lost.2.2.1]
          exact Nat.le_of_lt (Nat.lt_of_lt_of_le Nat.lt_log2_self
            (Nat.pow_le_pow_right (by decide) lost.2.2.2))
      _ ≤ rounded n := by
          rw [power (lostBits n) (by omega)]
          refine Nat.mul_le_mul_right _ (le_roundedShift ?_)
          rw [← power (lostBits n) (by omega)]
          exact Nat.log2_self_le nonzero
  · have equal : lostBits m = lostBits n := by
      simp only [lostBits] at same ⊢
      omega
    rw [rounded, rounded, equal]
    exact Nat.mul_le_mul_right _ (roundedShift_mono le)

theorem units_mul_two_pow (m k : Nat) (low : -2148 ≤ e - k) :
    units (m * 2 ^ k) (e - k) = units m e := by
  have place : (e + 2148).toNat = k + (e - k + 2148).toNat := by omega
  rw [units, units, place, Nat.pow_add, Nat.mul_assoc]

theorem units_of_lower {t : Int} (m : Nat) (low : -2148 ≤ t) (le : t ≤ e) :
    units (m * 2 ^ (e - t).toNat) t = units m e := by
  have shifted : e - ((e - t).toNat : Int) = t := by omega
  have same := units_mul_two_pow m (e - t).toNat (by rwa [shifted])
  rwa [shifted] at same

theorem units_carry (low : -2148 ≤ e) : units (2 ^ 53) e = units (2 ^ 52) (e + 1) := by
  have place : (e + 1 + 2148).toNat = 1 + (e + 2148).toNat := by omega
  rw [units, units, place, Nat.pow_add, ← Nat.mul_assoc]
  rfl

/-! ## The exponent that a number is held with -/

/-- The exponent that leaves 53 bits of the mantissa, but not below the least one. -/
def heldExponent (m : Nat) (e : Int) : Int := max (m.log2 + e - 52) (-1074)

theorem targetExponent_eq (m : Nat) (e : Int) :
    Format.binary64.targetExponent (totalExponent m e) = heldExponent m e := by
  have mantissa : Format.binary64.mantissaBits = 53 := rfl
  have least : Format.binary64.minExponent = -1074 := rfl
  rw [Format.targetExponent, totalExponent, mantissa, least, heldExponent]
  omega

theorem low_of_held (held : heldExponent m e = e) : -1074 ≤ e := held ▸ le_max_right _ _

theorem lt_of_held (held : heldExponent m e = e) : m < 2 ^ 53 := by
  have log : m.log2 < 53 := by
    rw [heldExponent] at held
    omega
  exact Nat.lt_of_lt_of_le Nat.lt_log2_self (Nat.pow_le_pow_right (by decide) log)

theorem log2_eq_of_held (held : heldExponent m e = e) (above : e ≠ -1074) : m.log2 = 52 := by
  rw [heldExponent] at held
  omega

theorem heldExponent_mul_two_pow (positive : 0 < m) (k : Nat) :
    heldExponent (m * 2 ^ k) (e - k) = heldExponent m e := by
  rw [heldExponent, heldExponent, log2_mul_two_pow positive]
  omega

theorem rounded_units (positive : 0 < m) (low : -2148 ≤ e) (le : e ≤ heldExponent m e) :
    rounded (units m e) =
      units (roundedShift m (heldExponent m e - e).toNat) (heldExponent m e) := by
  have lost : (lostBits (units m e) : Int) = heldExponent m e + 2148 := by
    rw [lostBits, units, log2_mul_two_pow positive, heldExponent]
    omega
  have place : (heldExponent m e + 2148).toNat = lostBits (units m e) := by omega
  have split : lostBits (units m e) = (heldExponent m e - e).toNat + (e + 2148).toNat := by omega
  have kept : roundedShift (units m e) (lostBits (units m e)) =
      roundedShift m (heldExponent m e - e).toNat := by
    rw [split, units, roundedShift_mul_two_pow_add]
  rw [rounded, kept, ← place]
  rfl

/-- What can be held is not changed. -/
theorem rounded_units_of_held (positive : 0 < m) (held : heldExponent m e = e) :
    rounded (units m e) = units m e := by
  have low := low_of_held held
  rw [rounded_units positive (by omega) (by omega), held, Int.sub_self]
  exact congrArg (units · e) (roundedShift_zero m)

/-! ## Results that have been rounded -/

/-- A number of units, whether or not they are too many for a number to be finite. -/
inductive Amounts : UnpackedFloat → Nat → Prop where
  | zero : Amounts (.zero .positive) 0
  | finite {m : Nat} {e : Int} (positive : 0 < m) (held : heldExponent m e = e) :
    Amounts (.finite .positive m e positive) (units m e)

theorem Amounts.rounded_eq {u : UnpackedFloat} (amounts : Amounts u n) : rounded n = n := by
  cases amounts with
  | zero => rw [rounded, Nat.le_zero.mp (roundedShift_le (by omega)), Nat.zero_mul]
  | finite positive held => exact rounded_units_of_held positive held

/-- The number with a mantissa that has been shifted to its exponent. -/
def ofShifted (shifted : ExtendedMantissa × Int) : UnpackedFloat :=
  if h : shifted.1.mantissa = 0 then .zero .positive
  else .finite .positive shifted.1.mantissa shifted.2 (Nat.pos_of_ne_zero h)

theorem amounts_ofShifted {shifted : ExtendedMantissa × Int}
    (held : heldExponent shifted.1.mantissa shifted.2 = shifted.2) :
    Amounts (ofShifted shifted) (units shifted.1.mantissa shifted.2) := by
  by_cases zero : shifted.1.mantissa = 0
  · rw [ofShifted, dif_pos zero, zero, units, Nat.zero_mul]
    exact .zero
  · rw [ofShifted, dif_neg zero]
    exact .finite _ held

theorem shiftToTargetExponent_eq (m : Nat) (e : Int) :
    shiftToTargetExponent Format.binary64 m e .exact =
      (ExtendedMantissa.ofMantissaAndAccuracy m .exact >>> (heldExponent m e - e).toNat,
        e + (heldExponent m e - e).toNat) := by
  rw [shiftToTargetExponent, shiftToExponent, targetExponent_eq]

/-- A rounded mantissa may be one bit too long, and then its last bit is zero. -/
theorem amounts_of_carry (le : m ≤ 2 ^ 53) (low : -1074 ≤ e) (long : e = -1074 ∨ 2 ^ 52 ≤ m) :
    Amounts (ofShifted (shiftToTargetExponent Format.binary64 m e .exact)) (units m e) := by
  rw [shiftToTargetExponent_eq]
  rcases Nat.lt_or_eq_of_le le with short | rfl
  · have least : 2 ^ 52 ≤ m → 52 ≤ m.log2 := fun high => (Nat.le_log2 (by omega)).mpr high
    have log : m.log2 ≤ 52 := by
      have most := log2_mono (Nat.le_sub_one_of_lt short)
      have all : (2 ^ 53 - 1 : Nat).log2 = 52 := by decide +kernel
      omega
    have held : heldExponent m e = e := by
      rw [heldExponent]
      omega
    have same : e + ((e - e).toNat : Int) = e := by omega
    rw [held, same, Int.sub_self]
    exact amounts_ofShifted held
  · have held : heldExponent (2 ^ 53) e = e + 1 := by
      rw [heldExponent, Nat.log2_two_pow]
      omega
    have half : heldExponent (2 ^ 52) (e + 1) = e + 1 := by
      rw [heldExponent, Nat.log2_two_pow]
      omega
    have one : (e + 1 - e).toNat = 1 := by omega
    rw [held, one, units_carry (by omega)]
    exact amounts_ofShifted half

theorem amounts_roundWithAccuracy (positive : 0 < m) (low : -2148 ≤ e)
    (le : e ≤ heldExponent m e) :
    Amounts (roundWithAccuracy Format.binary64 .positive m e .exact) (rounded (units m e)) := by
  have place : e + (heldExponent m e - e).toNat = heldExponent m e := by omega
  have shifted : roundWithAccuracy Format.binary64 .positive m e .exact =
      ofShifted (shiftToTargetExponent Format.binary64
        (roundedShift m (heldExponent m e - e).toNat) (heldExponent m e) .exact) := by
    rw [roundWithAccuracy, shiftToTargetExponent_eq m e, ← roundedMantissa_shiftRight, place]
    rfl
  rw [rounded_units positive low le, shifted]
  refine amounts_of_carry (roundedShift_le ?_) (le_max_right _ _) ?_
  · rw [← Nat.pow_add]
    refine Nat.le_of_lt (Nat.lt_of_lt_of_le Nat.lt_log2_self (Nat.pow_le_pow_right (by decide) ?_))
    rw [heldExponent]
    omega
  · by_cases least : heldExponent m e = -1074
    · exact .inl least
    · refine .inr (le_roundedShift ?_)
      rw [← Nat.pow_add]
      refine Nat.le_trans (Nat.pow_le_pow_right (by decide) ?_) (Nat.log2_self_le (by omega))
      rw [heldExponent] at le least ⊢
      omega

/-- A positive number is rounded to the nearest number of units that can be held. -/
theorem amounts_round (positive : 0 < m) (low : -2148 ≤ e) :
    Amounts (round Format.binary64 .positive m e) (rounded (units m e)) := by
  have least : -1074 ≤ heldExponent m e := le_max_right _ _
  rw [UnpackedFloat.round, targetExponent_eq]
  simp only [decreaseExponent, Nat.shiftLeft_eq]
  have longer := amounts_roundWithAccuracy (m := m * 2 ^ (e - heldExponent m e).toNat)
    (e := e - (e - heldExponent m e).toNat) (Nat.mul_pos positive (Nat.two_pow_pos _)) (by omega)
    (by rw [heldExponent_mul_two_pow positive]; omega)
  rwa [units_mul_two_pow _ _ (by omega)] at longer

end ProofPuzzles.Decimal
