import RobotPath.Proofs.Decimal.Double
import RobotPath.ProcessValue.Basic

/-!
# Integers as doubles

A double overflows when its exponent grows too large. Rounding moves an exponent by
no more than the number of bits that it has to drop, so the doubles nearest to the
integers that a path can hold are finite, far away from the largest one.
-/

namespace RobotPath

open Float.Model (UnpackedFloat Format totalExponent)
open Float.Model.UnpackedFloat

namespace Reading

/-! ## Packing without overflow -/

theorem isFinite_of_unpackExponent {m : Float.Model}
    (h : @unpackExponent Format.binary64 m.toBits.toBitVec ≠ -1#11) : m.unpack.isFinite = true := by
  unfold Float.Model.unpack UnpackedFloat.unpack
  dsimp only
  rw [if_neg h]
  split
  next =>
    split
    next => rfl
    next => rfl
  next => rfl

/-- A number whose exponent is moderate is packed into a finite double. -/
theorem isFinite_pack {sign : Sign} {mantissa : Nat} {exponent : Int} {hpos : 0 < mantissa}
    (h : exponent ≤ 900) :
    (Float.Model.pack (.finite sign mantissa exponent hpos)).unpack.isFinite = true := by
  apply isFinite_of_unpackExponent
  change unpackExponent (UnpackedFloat.pack Format.binary64 _) ≠ _
  have hbias : Format.binary64.exponentBias = 1023 := rfl
  have hmantissa : Format.binary64.mantissaBitsWithoutImplicit = 52 := rfl
  have hexponent : Format.binary64.exponentBits = 11 := rfl
  unfold UnpackedFloat.pack
  dsimp only
  rw [hbias, if_neg (by omega)]
  split
  next =>
    rw [unpackExponent_packComponents]
    -- With a moderate exponent the field holds less than the 2047 of an infinity.
    intro hones
    have hvalue := congrArg BitVec.toNat hones
    rw [BitVec.toNat_ofNat] at hvalue
    change _ % 2 ^ 11 = 2047 at hvalue
    omega
  next =>
    rw [unpackExponent_packComponents]
    decide

/-! ## Rounding an integer -/

theorem mantissa_shiftRight_le (em : ExtendedMantissa) (n : Nat) :
    (em >>> n).mantissa ≤ em.mantissa := by
  change (n.repeat ExtendedMantissa.shiftRightOne em).mantissa ≤ em.mantissa
  induction n with
  | zero => exact Nat.le_refl _
  | succ n ih => exact Nat.le_trans (Nat.div_le_self _ 2) ih

theorem roundedMantissa_le (em : ExtendedMantissa) : em.roundedMantissa ≤ em.mantissa + 1 := by
  unfold ExtendedMantissa.roundedMantissa Accuracy.roundToNearestEven
  split <;> omega

/-- Dropping bits makes a mantissa no longer, and adds to the exponent no more than
the bits that are too many. -/
theorem shiftToTargetExponent_le {mantissa bits : Nat} {exponent bound : Int}
    (hmantissa : mantissa < 2 ^ bits) (hbits : 0 < bits) (hbound : exponent ≤ bound)
    (hlong : bits + exponent - 53 ≤ bound) (hmin : -1074 ≤ bound) :
    (shiftToTargetExponent Format.binary64 mantissa exponent .exact).1.mantissa ≤ mantissa ∧
      (shiftToTargetExponent Format.binary64 mantissa exponent .exact).2 ≤ bound := by
  refine ⟨mantissa_shiftRight_le _ _, ?_⟩
  have hlog : mantissa.log2 < bits := by
    by_cases hzero : mantissa = 0
    · rw [hzero, Nat.log2_zero]
      exact hbits
    · exact (Nat.log2_lt hzero).mpr hmantissa
  have htarget : Format.binary64.targetExponent (totalExponent mantissa exponent) =
      max (mantissa.log2 + 1 + exponent - 53) (-1074) := rfl
  change exponent + (Format.binary64.targetExponent (totalExponent mantissa exponent) -
    exponent).toNat ≤ bound
  rw [htarget]
  omega

theorem isFinite_pack_roundWithAccuracy {sign : Sign} {mantissa : Nat} {exponent : Int}
    (hmantissa : mantissa < 2 ^ 200) (hexponent : exponent ≤ 0) :
    (Float.Model.pack (roundWithAccuracy Format.binary64 sign mantissa exponent
      .exact)).unpack.isFinite = true := by
  obtain ⟨hlength, hfirst⟩ := @shiftToTargetExponent_le _ 200 exponent 147 hmantissa (by decide)
    (by omega) (by omega) (by decide)
  unfold roundWithAccuracy
  generalize shiftToTargetExponent Format.binary64 mantissa exponent .exact = first at *
  -- Rounding up can make the mantissa one bit longer, so bits are dropped once more.
  have hrounded : first.1.roundedMantissa < 2 ^ 201 := by
    have hle := roundedMantissa_le first.1
    omega
  obtain ⟨-, hsecond⟩ := @shiftToTargetExponent_le _ 201 first.2 295 hrounded (by decide)
    (by omega) (by omega) (by decide)
  dsimp only
  split
  next => cases sign <;> rfl
  next => exact isFinite_pack (by omega)

/-- The double nearest to an integer of moderate length is finite. -/
theorem isFinite_nearest_of_lt {n : Int} (h : n.natAbs < 2 ^ 100) :
    (Decimal.nearest n).isFinite = true := by
  have hround (sign : Sign) {m : Nat} (hm : m < 2 ^ 100) :
      (Float.Model.pack (UnpackedFloat.round Format.binary64 sign m 0)).unpack.isFinite = true := by
    have htarget : Format.binary64.targetExponent (totalExponent m 0) =
        max ((m.log2 : Int) + 1 + 0 - 53) (-1074) := rfl
    unfold UnpackedFloat.round decreaseExponent
    dsimp only
    rw [htarget]
    -- A short mantissa is brought to 53 bits first, so at most 52 zeros are added to it.
    refine isFinite_pack_roundWithAccuracy ?_ (by omega)
    rw [Nat.shiftLeft_eq]
    calc m * 2 ^ (0 - max ((m.log2 : Int) + 1 + 0 - 53) (-1074)).toNat
        ≤ m * 2 ^ 52 := Nat.mul_le_mul_left m (Nat.pow_le_pow_right (by decide) (by omega))
      _ < 2 ^ 200 := by omega
  change (Float.Model.pack
    (UnpackedFloat.normalize Format.binary64 n 0 .positive)).unpack.isFinite = true
  unfold UnpackedFloat.normalize
  split
  next => exact hround .negative (by omega)
  next => rfl
  next => exact hround .positive (by omega)

theorem isFinite_nearest (value : Int64) : (ProcessValue.nearest value).isFinite = true := by
  have hmin := value.le_toInt
  have hmax := value.toInt_lt
  exact isFinite_nearest_of_lt (by omega)

end Reading

end RobotPath
