import RobotPath.Proofs.Decimal.Nearest
import RobotPath.Proofs.Decimal.Printed

/-!
# Whole numbers that are doubles

A double has room for every integer of up to 53 bits, and for the next power of two. The
double nearest to such an integer is the integer itself, so these integers compare as
doubles the way that they compare as integers.
-/

namespace RobotPath

open Float.Model (UnpackedFloat Format totalExponent)
open Float.Model.UnpackedFloat

namespace Reading

/-! ## Packing without loss -/

theorem pack_eq_packComponents {sign : Sign} {mantissa : Nat} {exponent : Int}
    {hpos : 0 < mantissa} (hlog : mantissa.log2 = 52) (hmax : exponent ≤ 900) :
    UnpackedFloat.pack Format.binary64 (.finite sign mantissa exponent hpos) =
      packComponents Format.binary64 sign (.ofNat 11 (exponent + 1075).toNat)
        (.ofNat 52 mantissa) := by
  have hbiased : (exponent + (Format.binary64.exponentBias : Int) +
      (Format.binary64.mantissaBitsWithoutImplicit : Int)).toNat = (exponent + 1075).toNat := by
    change (exponent + 1023 + 52).toNat = _
    omega
  unfold UnpackedFloat.pack
  dsimp only
  rw [hbiased, hlog, if_neg (by omega), if_pos (by rfl)]

/-- The leading bit of a mantissa is not stored, and comes back when it is read. -/
theorem toNat_leading_append (stored : BitVec 52) :
    (1#1 ++ stored).toNat = 2 ^ 52 + stored.toNat := by
  rw [BitVec.toNat_append, ← Nat.shiftLeft_add_eq_or_of_lt (BitVec.isLt _), Nat.shiftLeft_eq]
  rfl

theorem unpack_packComponents {sign : Sign} {mantissa field : Nat} {hpos : 0 < mantissa}
    (hlog : mantissa.log2 = 52) (hfield : 0 < field) (hmax : field < 2047) :
    UnpackedFloat.unpack Format.binary64
        (packComponents Format.binary64 sign (.ofNat 11 field) (.ofNat 52 mantissa)) =
      .finite sign mantissa (field - 1075) hpos := by
  have hvalue : (BitVec.ofNat 11 field).toNat = field := by
    rw [BitVec.toNat_ofNat]
    exact Nat.mod_eq_of_lt (by omega)
  have hne {other : BitVec 11} (h : field ≠ other.toNat) : BitVec.ofNat 11 field ≠ other := by
    rintro rfl
    exact h hvalue.symm
  have hmantissa : (1#1 ++ BitVec.ofNat 52 mantissa).toNat = mantissa := by
    obtain ⟨hlow, hhigh⟩ := (Nat.log2_eq_iff (Nat.ne_of_gt hpos)).mp hlog
    rw [toNat_leading_append, BitVec.toNat_ofNat]
    omega
  unfold UnpackedFloat.unpack
  simp only [unpackExponent_packComponents, unpackMantissa_packComponents,
    unpackSign_packComponents, Sign.ofBitVec_toBitVec]
  rw [if_neg (hne (by change field ≠ 2047; omega)), if_neg (@hne 0#11 (Nat.ne_of_gt hfield))]
  congr 1
  rw [hvalue]
  change (field : Int) - (1023 + 52) = _
  omega

/-- A number with a mantissa of 53 bits comes back from its double. -/
theorem unpack_pack {sign : Sign} {mantissa : Nat} {exponent : Int} {hpos : 0 < mantissa}
    (hlog : mantissa.log2 = 52) (hmin : -1074 ≤ exponent) (hmax : exponent ≤ 900) :
    (Float.Model.pack (.finite sign mantissa exponent hpos)).unpack =
      .finite sign mantissa exponent hpos := by
  change UnpackedFloat.unpack Format.binary64 (UnpackedFloat.pack Format.binary64 _) = _
  rw [pack_eq_packComponents hlog hmax,
    @unpack_packComponents sign mantissa _ hpos hlog (by omega) (by omega)]
  congr 1
  omega

/-! ## Rounding without loss -/

/-- The mantissas and exponents of doubles other than zero. -/
structure Canonical (mantissa : Nat) (exponent : Int) : Prop where
  pos : 0 < mantissa
  lt : mantissa < 2 ^ 53
  least_le : -1074 ≤ exponent
  /-- Only with the least exponent may leading bits be missing. -/
  full : -1074 < exponent → 2 ^ 52 ≤ mantissa

theorem canonical_of_log2 {mantissa : Nat} {exponent : Int} (hlog : mantissa.log2 = 52)
    (hmin : -1074 ≤ exponent) : Canonical mantissa exponent := by
  have hne : mantissa ≠ 0 := by
    rintro rfl
    cases hlog
  obtain ⟨hlow, hhigh⟩ := (Nat.log2_eq_iff hne).mp hlog
  exact ⟨Nat.pos_of_ne_zero hne, hhigh, hmin, fun _ => hlow⟩

theorem log2_shiftLeft {n : Nat} (h : n ≠ 0) (zeros : Nat) :
    (n <<< zeros).log2 = n.log2 + zeros := by
  induction zeros with
  | zero => rfl
  | succ zeros ih =>
      have hne : n <<< zeros ≠ 0 := by simpa [Nat.shiftLeft_eq] using h
      rw [Nat.shiftLeft_succ, Nat.log2_two_mul hne, ih, Nat.add_assoc]

theorem shiftRight_exact (mantissa zeros : Nat) :
    (⟨mantissa * 2 ^ zeros, false, false⟩ : ExtendedMantissa) >>> zeros =
      ⟨mantissa, false, false⟩ := by
  change zeros.repeat ExtendedMantissa.shiftRightOne _ = _
  induction zeros generalizing mantissa with
  | zero => rw [Nat.pow_zero, Nat.mul_one]; rfl
  | succ zeros ih =>
      rw [Nat.pow_succ, Nat.mul_comm (2 ^ zeros), ← Nat.mul_assoc, Nat.repeat, ih]
      simp [ExtendedMantissa.shiftRightOne]

namespace Canonical

variable {mantissa : Nat} {exponent : Int}

/-- Zeros at its end do not change the place that a mantissa is rounded to. -/
theorem targetExponent_mul_two_pow (h : Canonical mantissa exponent) (zeros : Nat) :
    Format.binary64.targetExponent (totalExponent (mantissa * 2 ^ zeros) (exponent - zeros)) =
      exponent := by
  have hne : mantissa ≠ 0 := Nat.ne_of_gt h.pos
  have hlog : mantissa.log2 < 53 := (Nat.log2_lt hne).mpr h.lt
  have hfull : -1074 < exponent → 52 ≤ mantissa.log2 := fun hlt =>
    (Nat.le_log2 hne).mpr (h.full hlt)
  have hleast := h.least_le
  rw [← Nat.shiftLeft_eq, totalExponent, log2_shiftLeft hne]
  change max (((mantissa.log2 + zeros : Nat) : Int) + 1 + (exponent - zeros) - 53) (-1074) = _
  omega

/-- The zeros are dropped, and nothing else. -/
theorem shiftToTargetExponent_eq (h : Canonical mantissa exponent) (zeros : Nat) :
    shiftToTargetExponent Format.binary64 (mantissa * 2 ^ zeros) (exponent - zeros) .exact =
      (⟨mantissa, false, false⟩, exponent) := by
  have hshift : (exponent - (exponent - zeros)).toNat = zeros := by omega
  have hback : exponent - zeros + zeros = exponent := by omega
  unfold shiftToTargetExponent shiftToExponent
  dsimp only
  rw [h.targetExponent_mul_two_pow, hshift, hback]
  exact congrArg (·, exponent) (shiftRight_exact mantissa zeros)

/-- A number that a double holds is found again when it is written with zeros at its end. -/
theorem roundWithAccuracy_eq (h : Canonical mantissa exponent) (sign : Sign) (zeros : Nat) :
    roundWithAccuracy Format.binary64 sign (mantissa * 2 ^ zeros) (exponent - zeros) .exact =
      .finite sign mantissa exponent h.pos := by
  have hrounded : (⟨mantissa, false, false⟩ : ExtendedMantissa).roundedMantissa = mantissa := rfl
  have hagain : shiftToTargetExponent Format.binary64 mantissa exponent .exact =
      (⟨mantissa, false, false⟩, exponent) := by
    simpa using h.shiftToTargetExponent_eq 0
  unfold roundWithAccuracy
  simp only [h.shiftToTargetExponent_eq, hrounded, hagain]
  rw [dif_neg (Nat.ne_of_gt h.pos)]

end Canonical

/-- An integer of up to 53 bits is lengthened by zeros and otherwise stays as it is. -/
theorem round_eq {sign : Sign} {n : Nat} (hpos : 0 < n) (h : n < 2 ^ 53) :
    ∃ mantissa exponent hmantissa,
      (Float.Model.pack (UnpackedFloat.round Format.binary64 sign n 0)).unpack =
          .finite sign mantissa exponent hmantissa ∧
        (mantissa : ℚ) * 2 ^ exponent = n := by
  have hlog : n.log2 ≤ 52 := by
    have hlt := (Nat.log2_lt (Nat.ne_of_gt hpos)).mpr h
    omega
  have htarget : Format.binary64.targetExponent (totalExponent n 0) = (n.log2 : Int) - 52 := by
    change max ((n.log2 : Int) + 1 + 0 - 53) (-1074) = _
    omega
  have hshift : (0 - ((n.log2 : Int) - 52)).toNat = 52 - n.log2 := by omega
  have hmantissa : 0 < n <<< (52 - n.log2) := by
    rw [Nat.shiftLeft_eq]
    exact Nat.mul_pos hpos (Nat.two_pow_pos _)
  have hlength : (n <<< (52 - n.log2)).log2 = 52 := by
    rw [log2_shiftLeft (Nat.ne_of_gt hpos)]
    omega
  refine ⟨n <<< (52 - n.log2), 0 - ((52 - n.log2 : Nat) : Int), hmantissa, ?_, ?_⟩
  · have hcanonical : Canonical (n <<< (52 - n.log2)) (0 - ((52 - n.log2 : Nat) : Int)) :=
      canonical_of_log2 hlength (by omega)
    have hround := hcanonical.roundWithAccuracy_eq sign 0
    rw [Nat.pow_zero, Nat.mul_one, Int.natCast_zero, Int.sub_zero] at hround
    unfold UnpackedFloat.round decreaseExponent
    dsimp only
    rw [htarget, hshift, hround, unpack_pack hlength (by omega) (by omega)]
  · rw [Nat.shiftLeft_eq, Nat.cast_mul, Nat.cast_pow, Nat.cast_two, zero_sub, zpow_neg,
      zpow_natCast, mul_assoc, mul_inv_cancel₀ (pow_ne_zero _ two_ne_zero), mul_one]

theorem value?_pack_round (sign : Sign) {n : Nat} (hpos : 0 < n) (h : n ≤ 2 ^ 53) :
    (ofFloat ⟨Float.Model.pack (UnpackedFloat.round Format.binary64 sign n 0)⟩).value? =
      some ((if isMinus sign then -1 else 1) * (n : ℚ)) := by
  by_cases hpower : n = 2 ^ 53
  · -- The power of two is the one that loses its last bit, which is a zero.
    have hreading : ofFloat ⟨Float.Model.pack (UnpackedFloat.round Format.binary64 sign n 0)⟩ =
        .finite (isMinus sign) (2 ^ 52) 1 := by
      subst hpower
      cases sign <;> decide +kernel
    rw [hreading, value?, hpower]
    norm_num
  · obtain ⟨mantissa, exponent, hmantissa, hunpack, hvalue⟩ :=
      @round_eq sign n hpos (Nat.lt_of_le_of_ne h hpower)
    have hreading : ofFloat ⟨Float.Model.pack (UnpackedFloat.round Format.binary64 sign n 0)⟩ =
        .finite (isMinus sign) mantissa exponent := by
      unfold ofFloat
      rw [hunpack]
    rw [hreading, value?, hvalue]

/-- An integer is rounded like its absolute value. -/
theorem value?_nearest_of_round {n : Int}
    (h : ∀ sign, 0 < n.natAbs →
      (ofFloat ⟨Float.Model.pack (UnpackedFloat.round Format.binary64 sign n.natAbs 0)⟩).value? =
        some ((if isMinus sign then -1 else 1) * (n.natAbs : ℚ))) :
    (ofFloat (Decimal.nearest n)).value? = some (n : ℚ) := by
  have hmodel : Decimal.nearest n =
      ⟨Float.Model.pack (UnpackedFloat.normalize Format.binary64 n 0 .positive)⟩ := rfl
  rcases lt_trichotomy n 0 with hneg | rfl | hpos
  · have hnat : (-n).toNat = n.natAbs := by omega
    have hcast : (n.natAbs : ℚ) = -n := by rw [Nat.cast_natAbs, abs_of_neg hneg, Int.cast_neg]
    rw [hmodel, UnpackedFloat.normalize, compare_lt_iff_lt.mpr hneg]
    dsimp only
    rw [hnat, h .negative (by omega), hcast, isMinus, if_pos rfl, neg_one_mul, neg_neg]
  · decide +kernel
  · have hnat : n.toNat = n.natAbs := by omega
    have hcast : (n.natAbs : ℚ) = n := by rw [Nat.cast_natAbs, abs_of_pos hpos]
    rw [hmodel, UnpackedFloat.normalize, compare_gt_iff_gt.mpr hpos]
    dsimp only
    rw [hnat, h .positive (by omega), hcast, isMinus, if_neg Bool.false_ne_true, one_mul]

/-- The double nearest to an integer of up to 53 bits is that integer. -/
theorem value?_nearest {n : Int} (h : n.natAbs ≤ 2 ^ 53) :
    (ofFloat (Decimal.nearest n)).value? = some (n : ℚ) :=
  value?_nearest_of_round fun sign hpos => value?_pack_round sign hpos h

/-- Doubles that compare equal stand for one number. -/
theorem value?_eq_of_beq {x y : Float} (h : (x == y) = true) :
    (ofFloat x).value? = (ofFloat y).value? := by
  rcases eq_or_zeros_of_beq h with rfl | ⟨_, _, hx, hy⟩
  · rfl
  · rw [hx, hy]
    simp [value?]

/-- Integers of up to 53 bits are equal when the doubles nearest to them are. -/
theorem beq_nearest_iff {a b : Int} (ha : a.natAbs ≤ 2 ^ 53) (hb : b.natAbs ≤ 2 ^ 53) :
    (Decimal.nearest a == Decimal.nearest b) = true ↔ a = b := by
  constructor
  · intro h
    have hvalue := value?_eq_of_beq h
    rw [value?_nearest ha, value?_nearest hb, Option.some_inj] at hvalue
    exact_mod_cast hvalue
  · rintro rfl
    obtain ⟨n, m, e, hreading⟩ :=
      (isFinite_iff (Decimal.nearest a)).mp (isFinite_nearest_of_lt (by omega))
    rw [Float.beq_iff_ne_nan_and_eq]
    have hne : Decimal.nearest a ≠ Float.nan := by
      intro hnan
      rw [hnan] at hreading
      cases hreading
    exact ⟨hne, hne, .inl rfl⟩

end Reading
end RobotPath
