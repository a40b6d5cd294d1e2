import Mathlib
import RobotPath.Decimal.Double

/-!
# Doubles by their readings

Doubles that compare equal are the same one, except that there are two zeros, and
how a double compares with zero can be told from its reading.
-/

namespace RobotPath

open Float.Model (UnpackedFloat)

namespace Reading

/-- Doubles that compare equal are one double, or both are zeros. -/
theorem eq_or_zeros_of_beq {x y : Float} (h : (x == y) = true) :
    x = y ∨ ∃ a b, ofFloat x = .finite a 0 0 ∧ ofFloat y = .finite b 0 0 := by
  obtain ⟨-, -, heq | ⟨rfl, rfl⟩ | ⟨rfl, rfl⟩⟩ := Float.beq_iff_ne_nan_and_eq.mp h
  · exact .inl heq
  · exact .inr ⟨false, true, rfl, rfl⟩
  · exact .inr ⟨true, false, rfl, rfl⟩

/-! ## Comparison with zero -/

theorem unpack_zero : (0 : Float).toModel.unpack = .zero .positive := rfl

theorem lt_iff_compare {x y : Float} :
    x < y ↔ x.toModel.unpack.compare y.toModel.unpack = some .lt :=
  (decide_eq_true_iff (p := x.toModel < y.toModel)).trans beq_iff_eq

theorem le_iff_compare {x y : Float} :
    x ≤ y ↔ (x.toModel.unpack.compare y.toModel.unpack).any Ordering.isLE = true :=
  decide_eq_true_iff (p := x.toModel ≤ y.toModel)

/-- The positive doubles: not a zero, not a minus. -/
theorem zero_lt_iff (x : Float) :
    0 < x ↔ (∃ m e, 0 < m ∧ ofFloat x = .finite false m e) ∨ ofFloat x = .infinite false := by
  rw [lt_iff_compare, unpack_zero, ofFloat]
  cases hx : x.toModel.unpack with
  | notANumber => simp [UnpackedFloat.compare]
  | infinity s => cases s <;> simp [UnpackedFloat.compare, isMinus]
  | zero s => simp [UnpackedFloat.compare]
  | finite s m e hm => cases s <;> simp [UnpackedFloat.compare, isMinus, hm]

/-- A finite double lies on one side of zero or at it. -/
theorem exists_compare_zero {x : Float} (h : x.isFinite = true) :
    ∃ order, (0 : Float).toModel.unpack.compare x.toModel.unpack = some order ∧
      x.toModel.unpack.compare (0 : Float).toModel.unpack = some order.swap := by
  have hfinite : x.toModel.unpack.isFinite = true := h
  rw [unpack_zero]
  cases hx : x.toModel.unpack with
  | notANumber => simp [hx, UnpackedFloat.isFinite] at hfinite
  | infinity s => simp [hx, UnpackedFloat.isFinite] at hfinite
  | zero s => exact ⟨.eq, rfl, rfl⟩
  | finite s m e hm => cases s <;> exact ⟨_, rfl, rfl⟩

theorem not_zero_lt_iff {x : Float} (h : x.isFinite = true) : ¬ 0 < x ↔ x ≤ 0 := by
  obtain ⟨order, hleft, hright⟩ := exists_compare_zero h
  rw [lt_iff_compare, le_iff_compare, hleft, hright]
  cases order <;> simp

theorem not_zero_le_iff {x : Float} (h : x.isFinite = true) : ¬ 0 ≤ x ↔ x < 0 := by
  obtain ⟨order, hleft, hright⟩ := exists_compare_zero h
  rw [lt_iff_compare, le_iff_compare, hleft, hright]
  cases order <;> simp

theorem isFinite_iff (x : Float) : x.isFinite = true ↔ ∃ n m e, ofFloat x = .finite n m e := by
  show x.toModel.unpack.isFinite = true ↔ _
  rw [ofFloat]
  cases x.toModel.unpack <;> simp [UnpackedFloat.isFinite]

/-- Among positive doubles equality has one meaning. -/
theorem eq_of_beq_of_pos {x y : Float} (h : (x == y) = true) (hpos : 0 < y) : x = y := by
  cases eq_or_zeros_of_beq h with
  | inl heq => exact heq
  | inr hzeros =>
      obtain ⟨_, b, -, hy⟩ := hzeros
      rw [zero_lt_iff, hy] at hpos
      simp at hpos

end Reading

end RobotPath
