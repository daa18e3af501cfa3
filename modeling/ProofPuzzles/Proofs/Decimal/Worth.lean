import ProofPuzzles.Proofs.Decimal.Packing

/-! # What numbers are worth

A number that is not negative is worth an amount of units, and an infinite one is worth more than
any other. Rounding is monotone, and so a sum is worth no more where its parts are, and a product
with a share, which is at most one, is worth no more than the number that it is a share of.
-/

namespace ProofPuzzles.Decimal

open Float.Model Float.Model.UnpackedFloat

section Unpacked

variable {m n : Nat} {e : Int} {u v : UnpackedFloat} {a b : ℕ∞}

/-- The least amount that is too large for a finite number. -/
def limit : Nat := units (2 ^ 53) 971

/-- Amounts that are too large count as infinite. -/
def capped (n : Nat) : ℕ∞ := if n < limit then n else ⊤

/-- The amount that can be held instead. -/
def settled : ℕ∞ → ℕ∞
  | none => ⊤
  | some n => capped (rounded n)

/-- A number that is not negative, with what it is worth. -/
inductive Holds : UnpackedFloat → ℕ∞ → Prop where
  | finite {u : UnpackedFloat} {n : Nat} (amounts : Amounts u n) (small : n < limit) : Holds u n
  | infinity : Holds (.infinity .positive) ⊤

theorem limit_pos : 0 < limit := Nat.mul_pos (Nat.two_pow_pos _) (Nat.two_pow_pos _)

theorem units_lt_limit_iff (positive : 0 < m) (held : heldExponent m e = e) :
    units m e < limit ↔ e ≤ 971 := by
  have low := low_of_held held
  constructor
  · intro less
    by_contra large
    have log := log2_eq_of_held held (by omega)
    have high : 2 ^ 52 ≤ m := (Nat.le_log2 (Nat.ne_of_gt positive)).mp (Nat.le_of_eq log.symm)
    refine Nat.not_le_of_lt less ?_
    rw [limit, units_carry (by decide)]
    exact Nat.mul_le_mul high (Nat.pow_le_pow_right (by decide) (by omega))
  · intro small
    exact Nat.mul_lt_mul_of_lt_of_le (lt_of_held held)
      (Nat.pow_le_pow_right (by decide) (by omega)) (Nat.two_pow_pos _)

theorem capped_mono : Monotone capped := by
  intro m n le
  rw [capped, capped]
  split
  · split
    · exact_mod_cast le
    · exact le_top
  · rw [if_neg (by omega)]

theorem settled_mono : Monotone settled := by
  intro a b le
  cases b with
  | top => exact le_top
  | coe n =>
      cases a with
      | top => exact absurd le (by simp)
      | coe m => exact capped_mono (rounded_mono (by exact_mod_cast le))

theorem Holds.settled_eq (holds : Holds u a) : settled a = a := by
  cases holds with
  | @finite _ n amounts small =>
      change capped (rounded n) = n
      rw [amounts.rounded_eq, capped, if_pos small]
  | infinity => rfl

theorem Holds.le_settled_add (holds : Holds u a) (b : ℕ∞) : a ≤ settled (a + b) :=
  calc a = settled a := holds.settled_eq.symm
    _ ≤ settled (a + b) := settled_mono le_self_add

theorem holds_pack_infinity : Holds (Float.Model.pack (.infinity .positive)).unpack ⊤ := by
  rw [unpack_pack_infinity]
  exact .infinity

/-- Where a result is too large, it is stored as infinite. -/
theorem Amounts.holds (amounts : Amounts u n) :
    Holds (Float.Model.pack u).unpack (capped n) := by
  cases amounts with
  | zero =>
      rw [unpack_pack_zero, capped, if_pos limit_pos]
      exact .finite .zero limit_pos
  | finite positive held =>
      rw [capped]
      split
      · rename_i small
        rw [unpack_pack_finite positive held ((units_lt_limit_iff positive held).mp small)]
        exact .finite (.finite positive held) small
      · rename_i large
        rw [units_lt_limit_iff positive held, Int.not_le] at large
        rw [pack_of_large positive large]
        exact holds_pack_infinity

/-! ## Sums -/

theorem normalize_eq_round (positive : 0 < n) (e : Int) (s : Sign) :
    UnpackedFloat.normalize Format.binary64 n e s = round Format.binary64 .positive n e := by
  have above : compare (n : Int) 0 = .gt := Int.compare_eq_gt.mpr (by omega)
  rw [UnpackedFloat.normalize, above]
  rfl

/-- Numbers are added at the smaller exponent. -/
theorem add_finite {m' : Nat} {e' : Int} (positive : 0 < m) (positive' : 0 < m') :
    UnpackedFloat.add Format.binary64 (.finite .positive m e positive)
        (.finite .positive m' e' positive') =
      round Format.binary64 .positive
        (m * 2 ^ (e - min e e').toNat + m' * 2 ^ (e' - min e e').toNat) (min e e') := by
  rw [← normalize_eq_round (Nat.add_pos_left (Nat.mul_pos positive (Nat.two_pow_pos _)) _) _
    .positive, Int.natCast_add, ← Nat.shiftLeft_eq, ← Nat.shiftLeft_eq]
  rfl

theorem Amounts.add (left : Amounts u m) (right : Amounts v n) :
    Amounts (UnpackedFloat.add Format.binary64 u v) (rounded (m + n)) := by
  cases left with
  | zero =>
      rw [Nat.zero_add, right.rounded_eq]
      cases right with
      | zero => exact .zero
      | finite positive held => exact .finite positive held
  | @finite m e positive held =>
      cases right with
      | zero =>
          rw [Nat.add_zero, rounded_units_of_held positive held]
          exact .finite positive held
      | @finite m' e' positive' held' =>
          have low := low_of_held held
          have low' := low_of_held held'
          rw [add_finite, ← units_of_lower m (by omega) (min_le_left e e'),
            ← units_of_lower m' (by omega) (min_le_right e e'), units, units, ← Nat.add_mul]
          exact amounts_round (Nat.add_pos_left (Nat.mul_pos positive (Nat.two_pow_pos _)) _)
            (by omega)

theorem Holds.add (left : Holds u a) (right : Holds v b) :
    Holds (Float.Model.pack (UnpackedFloat.add Format.binary64 u v)).unpack (settled (a + b)) := by
  cases left with
  | finite amounts small =>
      cases right with
      | finite amounts' small' => exact (amounts.add amounts').holds
      | infinity =>
          rw [add_top]
          cases amounts <;> exact holds_pack_infinity
  | infinity =>
      rw [top_add]
      cases right with
      | finite amounts small => cases amounts <;> exact holds_pack_infinity
      | infinity => exact holds_pack_infinity

theorem Holds.zero_add (holds : Holds u a) :
    UnpackedFloat.add Format.binary64 (.zero .positive) u = u := by
  cases holds with
  | finite amounts small => cases amounts <;> rfl
  | infinity => rfl

theorem Holds.add_zero (holds : Holds u a) :
    UnpackedFloat.add Format.binary64 u (.zero .positive) = u := by
  cases holds with
  | finite amounts small => cases amounts <;> rfl
  | infinity => rfl

/-! ## Shares of numbers -/

/-- A positive number that is not greater than one. -/
inductive Share : UnpackedFloat → Prop where
  | mk {m : Nat} {e : Int} (positive : 0 < m) (held : heldExponent m e = e) (below : e ≤ 0)
    (small : m ≤ 2 ^ (-e).toNat) : Share (.finite .positive m e positive)

theorem units_mul_le {m' : Nat} {e' : Int} (below : e' ≤ 0) (small : m' ≤ 2 ^ (-e').toNat)
    (low : -2148 ≤ e + e') : units (m * m') (e + e') ≤ units m e := by
  have place : (e + 2148).toNat = (-e').toNat + (e + e' + 2148).toNat := by omega
  rw [units, units, place, Nat.pow_add, ← Nat.mul_assoc]
  exact Nat.mul_le_mul_right _ (Nat.mul_le_mul_left m small)

theorem Amounts.mul (amounts : Amounts u n) (share : Share v) :
    ∃ k ≤ n, Amounts (UnpackedFloat.mul Format.binary64 u v) k := by
  cases share with
  | @mk m' e' positive' held' below small =>
      cases amounts with
      | zero => exact ⟨0, le_refl 0, .zero⟩
      | @finite m e positive held =>
          have low := low_of_held held
          have low' := low_of_held held'
          refine ⟨rounded (units (m * m') (e + e')), ?_, ?_⟩
          · rw [← rounded_units_of_held positive held]
            exact rounded_mono (units_mul_le below small (by omega))
          · refine amounts_roundWithAccuracy (Nat.mul_pos positive positive') (by omega) ?_
            -- the mantissa has got no shorter, or the exponent is below the least one
            have longer := log2_mono (Nat.le_mul_of_pos_right m positive')
            rw [heldExponent] at held ⊢
            omega

theorem Holds.mul (holds : Holds u a) (share : Share v) :
    ∃ b ≤ a, Holds (Float.Model.pack (UnpackedFloat.mul Format.binary64 u v)).unpack b := by
  cases holds with
  | finite amounts small =>
      obtain ⟨k, le, amounts⟩ := amounts.mul share
      have fits := amounts.holds
      rw [capped, if_pos (Nat.lt_of_le_of_lt le small)] at fits
      exact ⟨k, by exact_mod_cast le, fits⟩
  | infinity =>
      cases share
      exact ⟨⊤, le_top, holds_pack_infinity⟩

/-! ## Comparisons -/

theorem Stored.exists_holds (stored : Stored u)
    (above : UnpackedFloat.compare (.zero .positive) u = some .lt) : ∃ a, 0 < a ∧ Holds u a := by
  match u, stored with
  | .infinity .positive, _ => exact ⟨⊤, by simp, .infinity⟩
  | .finite .positive m e positive, stored =>
      obtain ⟨held, small⟩ := stored _ _ _ _ rfl
      refine ⟨units m e, ?_, .finite (.finite positive held)
        ((units_lt_limit_iff positive held).mpr small)⟩
      exact_mod_cast Nat.mul_pos positive (Nat.two_pow_pos _)

theorem Holds.zero_lt_iff (holds : Holds u a) :
    UnpackedFloat.compare (.zero .positive) u = some .lt ↔ 0 < a := by
  cases holds with
  | finite amounts small =>
      cases amounts with
      | zero => exact ⟨nofun, fun above => absurd above (by simp)⟩
      | finite positive held =>
          refine ⟨fun _ => ?_, fun _ => rfl⟩
          exact_mod_cast Nat.mul_pos positive (Nat.two_pow_pos _)
  | infinity => exact ⟨fun _ => by simp, fun _ => rfl⟩

theorem Holds.compare_zero (holds : Holds u a) (above : 0 < a) :
    UnpackedFloat.compare u (.zero .positive) = some .gt := by
  cases holds with
  | finite amounts small =>
      cases amounts with
      | zero => exact absurd above (by simp)
      | finite positive held => rfl
  | infinity => rfl

theorem Holds.isFinite_iff (holds : Holds u a) : u.isFinite = true ↔ a ≠ ⊤ := by
  cases holds with
  | finite amounts small => cases amounts <;> simp [UnpackedFloat.isFinite]
  | infinity => simp [UnpackedFloat.isFinite]

theorem Stored.share (stored : Stored u)
    (above : UnpackedFloat.compare (.zero .positive) u = some .lt)
    (below : (UnpackedFloat.compare u (.finite .positive (2 ^ 52) (-52) (by decide))).any
      (·.isLE) = true) : Share u := by
  match u, stored with
  | .infinity .positive, _ => cases below
  | .finite .positive m e positive, stored =>
      obtain ⟨held, -⟩ := stored _ _ _ _ rfl
      have ordered : ((compare e (-52)).then (compare m (2 ^ 52))).isLE = true := below
      rw [Ordering.isLE_then_iff_or, Int.compare_eq_lt, Int.compare_eq_eq] at ordered
      rcases ordered with less | ⟨rfl, le⟩
      · refine .mk positive held (by omega) ?_
        exact Nat.le_of_lt (Nat.lt_of_lt_of_le (lt_of_held held)
          (Nat.pow_le_pow_right (by decide) (by omega)))
      · exact .mk positive held (by decide) (Nat.isLE_compare.mp le)

end Unpacked

/-! ## Numbers as they are used -/

/-- A number that is not negative, with what it is worth. -/
def Worth (x : Float) (a : ℕ∞) : Prop := Holds x.toModel.unpack a

/-- A number that is neither above nor below zero, and stays so in products with shares. -/
def Naught (x : Float) : Prop :=
  x.toModel.unpack = .notANumber ∨ ∃ s, x.toModel.unpack = .zero s

variable {x y d : Float} {a b : ℕ∞}

theorem unpack_zero : (0.0 : Float).toModel.unpack = .zero .positive := by
  have bits : (0.0 : Float).toModel = Float.Model.pack (.zero .positive) := by decide +kernel
  rw [bits, unpack_pack_zero]

theorem unpack_one :
    (1.0 : Float).toModel.unpack = .finite .positive (2 ^ 52) (-52) (by decide) := by
  have bits : (1.0 : Float).toModel =
      Float.Model.pack (.finite .positive (2 ^ 52) (-52) (by decide)) := by decide +kernel
  rw [bits, unpack_pack_finite _ (by decide) (by decide)]

theorem lt_iff : x < y ↔ x.toModel.unpack.compare y.toModel.unpack = some .lt := by
  change decide (x.toModel < y.toModel) = true ↔ _
  rw [decide_eq_true_iff]
  change (_ == _) = true ↔ _
  exact beq_iff_eq

theorem le_iff : x ≤ y ↔ (x.toModel.unpack.compare y.toModel.unpack).any (·.isLE) = true := by
  change decide (x.toModel ≤ y.toModel) = true ↔ _
  rw [decide_eq_true_iff]
  rfl

theorem worth_zero : Worth 0.0 0 := by
  rw [Worth, unpack_zero]
  exact .finite .zero limit_pos

/-- A sum is worth what its parts are worth together, as far as that can be held. -/
theorem Worth.add (left : Worth x a) (right : Worth y b) : Worth (x + y) (settled (a + b)) :=
  Holds.add left right

theorem Worth.zero_add (worth : Worth x a) : 0.0 + x = x := by
  have same := Holds.zero_add worth
  rw [← unpack_zero] at same
  exact congrArg Float.ofModel ((congrArg Float.Model.pack same).trans (pack_unpack x.toModel))

theorem Worth.add_zero (worth : Worth x a) : x + 0.0 = x := by
  have same := Holds.add_zero worth
  rw [← unpack_zero] at same
  exact congrArg Float.ofModel ((congrArg Float.Model.pack same).trans (pack_unpack x.toModel))

/-- A sum is worth no less than its first part. -/
theorem Worth.le_settled_add (worth : Worth x a) (b : ℕ∞) : a ≤ settled (a + b) :=
  Holds.le_settled_add worth b

theorem exists_worth (above : 0.0 < x) : ∃ a, 0 < a ∧ Worth x a := by
  rw [lt_iff, unpack_zero] at above
  exact (stored_unpack x.toModel).exists_holds above

theorem Worth.pos_iff (worth : Worth x a) : 0.0 < x ↔ 0 < a := by
  rw [lt_iff, unpack_zero]
  exact Holds.zero_lt_iff worth

theorem Worth.not_nonpos (worth : Worth x a) (above : 0 < a) : ¬x ≤ 0.0 := by
  rw [le_iff, unpack_zero, Holds.compare_zero worth above]
  decide

theorem Worth.isFinite_iff (worth : Worth x a) : x.isFinite = true ↔ a ≠ ⊤ :=
  Holds.isFinite_iff worth

theorem share_of_le_one (above : 0.0 < d) (below : d ≤ 1.0) : Share d.toModel.unpack := by
  rw [lt_iff, unpack_zero] at above
  rw [le_iff, unpack_one] at below
  exact (stored_unpack d.toModel).share above below

/-- A share of a number is worth no more than the number. -/
theorem Worth.mul (worth : Worth x a) (share : Share d.toModel.unpack) :
    ∃ b ≤ a, Worth (x * d) b :=
  Holds.mul worth share

theorem naught_or_pos (notBelow : ¬x < 0.0) : Naught x ∨ 0.0 < x := by
  rw [lt_iff, unpack_zero] at notBelow
  rw [Naught, lt_iff, unpack_zero]
  match x.toModel.unpack, notBelow with
  | .notANumber, _ => exact .inl (.inl rfl)
  | .zero s, _ => exact .inl (.inr ⟨s, rfl⟩)
  | .infinity .positive, _ => exact .inr rfl
  | .finite .positive m e positive, _ => exact .inr rfl
  | .infinity .negative, notBelow => exact absurd rfl notBelow
  | .finite .negative m e positive, notBelow => exact absurd rfl notBelow

theorem Naught.not_pos (naught : Naught x) : ¬0.0 < x := by
  rw [lt_iff, unpack_zero]
  rcases naught with same | ⟨s, same⟩ <;> rw [same] <;> exact nofun

theorem Naught.mul (naught : Naught x) (share : Share d.toModel.unpack) :
    Naught (x * d) := by
  have product : (x * d).toModel.unpack = (Float.Model.pack
      (UnpackedFloat.mul Format.binary64 x.toModel.unpack d.toModel.unpack)).unpack := rfl
  rw [Naught, product]
  generalize d.toModel.unpack = v at share
  cases share with
  | mk positive held below small =>
      rcases naught with same | ⟨s, same⟩
      · rw [same]
        exact .inl unpack_pack_notANumber
      · rw [same]
        exact .inr ⟨_, unpack_pack_zero _⟩

end ProofPuzzles.Decimal
