import Mathlib
import ProofPuzzles.Proofs.Decimal.Rounding

/-! # Numbers as they are stored

Eleven bits of a number store its exponent and 52 bits its mantissa. Whatever has been rounded is
read back as it was, unless its exponent is too large to be stored: then it is read back as
infinite. So all that is stored is held with the exponent for its size.
-/

namespace ProofPuzzles.Decimal

open Float.Model Float.Model.UnpackedFloat

variable {m : Nat} {e : Int} {s : Sign}

/-- The exponent as it is stored. -/
def storedExponent (e : Int) : Nat := (e + 1075).toNat

/-- What is read from the exponent and the mantissa that are stored. -/
def ofFields (s : Sign) (exponent mantissa : Nat) : UnpackedFloat :=
  if exponent = 2047 then
    if mantissa = 0 then .infinity s else .notANumber
  else if exponent = 0 then
    if h : mantissa = 0 then .zero s
    else .finite s mantissa (-1074) (Nat.pos_of_ne_zero h)
  else .finite s (2 ^ 52 + mantissa) (exponent - 1075) (Nat.add_pos_left (Nat.two_pow_pos 52) _)

theorem pack_finite (positive : 0 < m) :
    UnpackedFloat.pack Format.binary64 (.finite s m e positive) =
      if 2048 ≤ storedExponent e + 1 then packedInfinity Format.binary64 s
      else if m.log2 + 1 = 53 then
        packComponents Format.binary64 s (BitVec.ofNat 11 (storedExponent e)) (BitVec.ofNat 52 m)
      else packComponents Format.binary64 s 0#11 (BitVec.ofNat 52 m) := by
  have bias : (Format.binary64.exponentBias : Int) = 1023 := rfl
  have bits : (Format.binary64.mantissaBitsWithoutImplicit : Int) = 52 := rfl
  have stored : e + (Format.binary64.exponentBias : Int) +
      Format.binary64.mantissaBitsWithoutImplicit = e + 1075 := by omega
  rw [UnpackedFloat.pack, stored]
  rfl

theorem toNat_implicit (b : BitVec 52) : (1#1 ++ b).toNat = 2 ^ 52 + b.toNat := by
  rw [BitVec.toNat_append, ← Nat.shiftLeft_add_eq_or_of_lt b.isLt]
  rfl

theorem unpack_packComponents (s : Sign) (exponent : BitVec 11) (mantissa : BitVec 52) :
    UnpackedFloat.unpack Format.binary64 (packComponents Format.binary64 s exponent mantissa) =
      ofFields s exponent.toNat mantissa.toNat := by
  have last : exponent = -1#11 ↔ exponent.toNat = 2047 := BitVec.toNat_inj.symm
  have first : exponent = 0#11 ↔ exponent.toNat = 0 := BitVec.toNat_inj.symm
  have none : mantissa = 0#52 ↔ mantissa.toNat = 0 := BitVec.toNat_inj.symm
  unfold UnpackedFloat.unpack
  simp only [unpackMantissa_packComponents, unpackExponent_packComponents,
    unpackSign_packComponents, Sign.ofBitVec_toBitVec, toNat_implicit, last, first, none, ofFields]
  split
  · rfl
  · split
    · rename_i zero
      rw [zero]
      rfl
    · rfl

/-! ## Reading back -/

theorem unpack_pack_notANumber : (Float.Model.pack .notANumber).unpack = .notANumber := rfl

theorem unpack_pack_zero (s : Sign) : (Float.Model.pack (.zero s)).unpack = .zero s := by
  cases s <;> rfl

theorem unpack_pack_infinity (s : Sign) :
    (Float.Model.pack (.infinity s)).unpack = .infinity s := by
  cases s <;> rfl

theorem pack_of_large (positive : 0 < m) (large : 972 ≤ e) :
    Float.Model.pack (.finite s m e positive) = Float.Model.pack (.infinity s) := by
  have bits : UnpackedFloat.pack Format.binary64 (.finite s m e positive) =
      UnpackedFloat.pack Format.binary64 (.infinity s) := by
    rw [pack_finite, storedExponent, if_pos (by omega)]
    rfl
  simp only [Float.Model.pack, bits]

theorem unpack_pack_finite (positive : 0 < m) (held : heldExponent m e = e) (small : e ≤ 971) :
    (Float.Model.pack (.finite s m e positive)).unpack = .finite s m e positive := by
  have low := low_of_held held
  have short := lt_of_held held
  have stored : ¬2048 ≤ storedExponent e + 1 := by
    rw [storedExponent]
    omega
  change UnpackedFloat.unpack _ (UnpackedFloat.pack _ _) = _
  rw [pack_finite, if_neg stored]
  split
  · rename_i normal
    have high : 2 ^ 52 ≤ m := (Nat.le_log2 (Nat.ne_of_gt positive)).mp (by omega)
    have exponent : (BitVec.ofNat 11 (storedExponent e)).toNat = storedExponent e := by
      rw [BitVec.toNat_ofNat, storedExponent, Nat.mod_eq_of_lt (by omega)]
    have mantissa : (BitVec.ofNat 52 m).toNat = m - 2 ^ 52 := by
      rw [BitVec.toNat_ofNat]
      omega
    rw [unpack_packComponents, exponent, mantissa, ofFields, storedExponent, if_neg (by omega),
      if_neg (by omega), UnpackedFloat.finite.injEq]
    exact ⟨rfl, by omega, by omega⟩
  · rename_i subnormal
    have log : m.log2 < 52 := by
      rw [heldExponent] at held
      omega
    have least : e = -1074 := by
      by_contra above
      exact Nat.ne_of_lt log (log2_eq_of_held held above)
    have small : m < 2 ^ 52 := (Nat.log2_lt (Nat.ne_of_gt positive)).mp log
    have mantissa : (BitVec.ofNat 52 m).toNat = m := by
      rw [BitVec.toNat_ofNat, Nat.mod_eq_of_lt small]
    subst least
    rw [unpack_packComponents, mantissa, ofFields, BitVec.toNat_zero, if_neg (by omega),
      if_pos rfl, dif_neg (Nat.ne_of_gt positive)]

/-! ## What is stored -/

/-- A finite number has the exponent for its size, and that is small enough to be stored. -/
def Stored (u : UnpackedFloat) : Prop :=
  ∀ s m e positive, u = .finite s m e positive → heldExponent m e = e ∧ e ≤ 971

theorem stored_ofFields {exponent mantissa : Nat} (most : exponent ≤ 2047)
    (short : mantissa < 2 ^ 52) : Stored (ofFields s exponent mantissa) := by
  intro s m e positive finite
  unfold ofFields at finite
  split at finite
  · split at finite <;> cases finite
  · split at finite
    · split at finite
      · cases finite
      · cases finite
        have log := (Nat.log2_lt (Nat.ne_of_gt positive)).mpr short
        rw [heldExponent]
        omega
    · cases finite
      have log : (2 ^ 52 + mantissa).log2 = 52 :=
        (Nat.log2_eq_iff (Nat.ne_of_gt positive)).mpr (by omega)
      rw [heldExponent, log]
      omega

theorem stored_unpack (x : Float.Model) : Stored x.unpack := by
  have parts := @packComponents_unpackSign_unpackExponent_unpackMantissa
    Format.binary64 x.toBits.toBitVec
  rw [Float.Model.unpack, ← parts, unpack_packComponents]
  exact stored_ofFields (Nat.le_of_lt_succ (BitVec.isLt _)) (BitVec.isLt _)

theorem pack_unpack (x : Float.Model) : Float.Model.pack x.unpack = x := by
  obtain ⟨bits, valid⟩ := x
  have same : UnpackedFloat.pack Format.binary64
      (UnpackedFloat.unpack Format.binary64 bits.toBitVec) = bits.toBitVec :=
    pack_unpack_of_valid valid
  simp only [Float.Model.pack, Float.Model.unpack, same]

end ProofPuzzles.Decimal
