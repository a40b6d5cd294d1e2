import RobotPath.Proofs.Decimal.Canonical

/-!
# Adding zero and multiplying by one

Rounding does nothing to a number that a double holds already. So one times a double is that
double, and the sum of a double and a zero is that double too, except for the sign of a zero.
Doubles that differ in nothing else are alike, and what is computed from them is alike again.
-/

namespace RobotPath

open Float.Model (UnpackedFloat Format)
open Float.Model.UnpackedFloat

namespace Reading

theorem mul_eq_pack (x y : Float) : x * y =
    ⟨Float.Model.pack (UnpackedFloat.mul Format.binary64 x.toModel.unpack y.toModel.unpack)⟩ := rfl

theorem add_eq_pack (x y : Float) : x + y =
    ⟨Float.Model.pack (UnpackedFloat.add Format.binary64 x.toModel.unpack y.toModel.unpack)⟩ := rfl

theorem pack_unpack_toModel (x : Float) : (⟨Float.Model.pack x.toModel.unpack⟩ : Float) = x := by
  rw [← Float.toBits_inj]
  exact UInt64.toBitVec_inj.mp (pack_unpack_of_valid x.toModel.valid)

/-! ## Order of operands -/

theorem sign_mul_comm (s t : Sign) : s * t = t * s := by
  cases s <;> cases t <;> rfl

protected theorem mul_comm (x y : Float) : x * y = y * x := by
  have hunpacked (a b : UnpackedFloat) : UnpackedFloat.mul Format.binary64 a b =
      UnpackedFloat.mul Format.binary64 b a := by
    cases a with
    | notANumber => cases b <;> rfl
    | infinity s | zero s => cases b <;> simp only [UnpackedFloat.mul, sign_mul_comm]
    | finite s m e hm =>
        cases b with
        | finite t m' e' hm' =>
            rw [UnpackedFloat.mul, UnpackedFloat.mul, sign_mul_comm, Nat.mul_comm, Int.add_comm]
        | _ => simp only [UnpackedFloat.mul, sign_mul_comm]
  rw [mul_eq_pack, hunpacked, mul_eq_pack]

protected theorem add_comm (x y : Float) : x + y = y + x := by
  have hunpacked (a b : UnpackedFloat) : UnpackedFloat.add Format.binary64 a b =
      UnpackedFloat.add Format.binary64 b a := by
    cases a with
    | notANumber => cases b <;> rfl
    | infinity s =>
        cases b with
        | infinity t => cases s <;> cases t <;> rfl
        | _ => rfl
    | zero s =>
        cases b with
        | zero t => cases s <;> cases t <;> rfl
        | _ => rfl
    | finite s m e hm =>
        cases b with
        | finite t m' e' hm' =>
            simp only [UnpackedFloat.add]
            rw [Int.min_comm, Int.add_comm]
        | _ => rfl
  rw [add_eq_pack, hunpacked, add_eq_pack]

/-! ## One -/

protected theorem one_mul (x : Float) : 1 * x = x := by
  have hone : (1 : Float).toModel.unpack = .finite .positive (2 ^ 52) (-52) (by decide) := rfl
  have hsign (s : Sign) : Sign.positive * s = s := by cases s <;> rfl
  have hunpacked : UnpackedFloat.mul Format.binary64 (1 : Float).toModel.unpack
      x.toModel.unpack = x.toModel.unpack := by
    rw [hone]
    cases hx : x.toModel.unpack with
    | notANumber => rfl
    | infinity s | zero s => rw [UnpackedFloat.mul, hsign]
    | finite s m e hm =>
        -- The product is the number with 52 zeros at its end.
        rw [UnpackedFloat.mul, hsign, Nat.mul_comm, Int.add_comm]
        exact (canonical_unpack hx).roundWithAccuracy_eq s 52
  rw [mul_eq_pack, hunpacked, pack_unpack_toModel]

protected theorem mul_one (x : Float) : x * 1 = x := by
  rw [Reading.mul_comm, Reading.one_mul]

/-! ## Zero -/

/-- There are two zeros. -/
def IsZero (x : Float) : Prop := x = 0 ∨ x = -0

namespace IsZero

variable {x y : Float}

theorem iff_unpack : IsZero x ↔ ∃ sign, x.toModel.unpack = .zero sign := by
  constructor
  · rintro (rfl | rfl)
    · exact ⟨.positive, rfl⟩
    · exact ⟨.negative, rfl⟩
  · rintro ⟨sign, hunpack⟩
    rw [← pack_unpack_toModel x, hunpack]
    cases sign with
    | positive => exact .inl rfl
    | negative => exact .inr rfl

/-- A zero times a number is a zero. -/
theorem mul (hx : IsZero x) (hy : y.isFinite = true) : IsZero (x * y) := by
  obtain ⟨sign, hx⟩ := iff_unpack.mp hx
  have hzero (s : Sign) : IsZero ⟨Float.Model.pack (.zero s)⟩ :=
    iff_unpack.mpr ⟨s, by cases s <;> rfl⟩
  have hfinite : y.toModel.unpack.isFinite = true := hy
  rw [mul_eq_pack, hx]
  cases hunpack : y.toModel.unpack with
  | zero s => exact hzero _
  | finite s m e hm => exact hzero _
  | notANumber | infinity s =>
      rw [hunpack] at hfinite
      cases hfinite

/-- A zero times anything else is not a number, whichever zero it is. -/
theorem mul_eq_nan (hx : IsZero x) (hy : ¬ y.isFinite = true) : x * y = Float.nan := by
  obtain ⟨sign, hx⟩ := iff_unpack.mp hx
  have hinfinite : ¬ y.toModel.unpack.isFinite = true := hy
  rw [mul_eq_pack, hx]
  cases hunpack : y.toModel.unpack with
  | notANumber | infinity s => rfl
  | zero s | finite s m e hm =>
      rw [hunpack] at hinfinite
      exact absurd rfl hinfinite

end IsZero

/-- Doubles that are the same, except that they may be different zeros. -/
inductive Alike : Float → Float → Prop where
  | same (x : Float) : Alike x x
  | zeros {x y : Float} (hx : IsZero x) (hy : IsZero y) : Alike x y

namespace Alike

variable {a b c d : Float}

theorem symm (h : Alike a b) : Alike b a := by
  cases h with
  | same => exact .same a
  | zeros ha hb => exact .zeros hb ha

theorem trans (h : Alike a b) (h' : Alike b c) : Alike a c := by
  cases h with
  | same => exact h'
  | zeros ha hb =>
      cases h' with
      | same => exact .zeros ha hb
      | zeros _ hc => exact .zeros ha hc

/-- Doubles are alike when they compare equal, and what is not a number is like itself. -/
theorem iff_eq_or_beq : Alike a b ↔ a = b ∨ (a == b) = true := by
  constructor
  · intro h
    cases h with
    | same => exact .inl rfl
    | zeros ha hb =>
        right
        rcases ha with rfl | rfl <;> rcases hb with rfl | rfl <;> decide
  · rintro (rfl | h)
    · exact .same a
    · obtain ⟨-, -, rfl | ⟨rfl, rfl⟩ | ⟨rfl, rfl⟩⟩ := Float.beq_iff_ne_nan_and_eq.mp h
      · exact .same a
      · exact .zeros (.inl rfl) (.inr rfl)
      · exact .zeros (.inr rfl) (.inl rfl)

end Alike

/-- A zero adds nothing. -/
theorem IsZero.add_alike {x : Float} (hx : IsZero x) (y : Float) : Alike (x + y) y := by
  obtain ⟨sign, hx⟩ := iff_unpack.mp hx
  have hkept (hadd : UnpackedFloat.add Format.binary64 (.zero sign) y.toModel.unpack =
      y.toModel.unpack) : Alike (x + y) y := by
    rw [add_eq_pack, hx, hadd, pack_unpack_toModel]
    exact .same y
  cases hunpack : y.toModel.unpack with
  | notANumber | infinity s | finite s m e hm =>
      apply hkept
      rw [hunpack]
      rfl
  | zero s =>
      have hy : IsZero y := iff_unpack.mpr ⟨s, hunpack⟩
      refine .zeros ?_ hy
      rw [add_eq_pack, hx, hunpack]
      cases sign <;> cases s
      · exact .inr rfl
      · exact .inl rfl
      · exact .inl rfl
      · exact .inl rfl

namespace Alike

variable {a b c d : Float}

theorem add_zero {x : Float} (hx : IsZero x) (y : Float) : Alike (y + x) y := by
  rw [Reading.add_comm]
  exact hx.add_alike y

theorem add_right (h : Alike a b) (c : Float) : Alike (a + c) (b + c) := by
  cases h with
  | same => exact .same (a + c)
  | zeros ha hb => exact (ha.add_alike c).trans (hb.add_alike c).symm

theorem mul_right (h : Alike a b) (c : Float) : Alike (a * c) (b * c) := by
  cases h with
  | same => exact .same (a * c)
  | zeros ha hb =>
      by_cases hc : c.isFinite = true
      · exact .zeros (ha.mul hc) (hb.mul hc)
      · rw [ha.mul_eq_nan hc, hb.mul_eq_nan hc]
        exact .same Float.nan

end Alike

end Reading

end RobotPath
