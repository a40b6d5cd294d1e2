import Mathlib.Tactic.Positivity
import RobotPath.Proofs.Decimal.Denotation
import RobotPath.Proofs.Decimal.Double

/-!
# What print keeps of a number

A printed number can be read exactly when the double is finite. Rounding to some
places may lose the number altogether: a positive double is printed as a zero when it
is at most half a unit of the last place.
-/

namespace RobotPath

/-- The exact number that a finite double stands for. -/
def Reading.value? : Reading → Option ℚ
  | .finite negative mantissa exponent =>
      some ((if negative then -1 else 1) * (mantissa * 2 ^ exponent))
  | .notANumber | .infinite _ => none

namespace Decimal

/-! ## Rounding to zero -/

/-- A quotient is rounded to zero when it is at most a half. -/
theorem roundDiv_pos_iff {num den : Nat} (h : 0 < den) :
    0 < roundDiv num den ↔ den < 2 * num := by
  unfold roundDiv
  dsimp only
  by_cases hlt : num < den
  · -- Nothing is below but zero, and zero is even.
    rw [Nat.div_eq_of_lt hlt, Nat.mod_eq_of_lt hlt]
    split
    · omega
    · split <;> omega
  · have hbelow : 0 < num / den := Nat.div_pos (by omega) h
    split
    · omega
    · split <;> omega

theorem unitsAt_pos_iff (places mantissa : Nat) (exponent : Int) :
    0 < unitsAt places mantissa exponent ↔
      1 / (2 * 10 ^ places) < (mantissa : ℚ) * 2 ^ exponent := by
  have htens : (0 : ℚ) < 2 * 10 ^ places := by positivity
  rw [div_lt_iff₀ htens]
  cases exponent with
  | ofNat up =>
      have hcast : (mantissa : ℚ) * 2 ^ (Int.ofNat up) * (2 * 10 ^ places) =
          ((2 * (mantissa * 2 ^ up * 10 ^ places) : ℕ) : ℚ) := by
        push_cast
        rw [Int.ofNat_eq_natCast, zpow_natCast]
        ring
      rw [hcast, ← Nat.cast_one, Nat.cast_lt, unitsAt, Nat.pow_eq, Nat.pow_eq]
      omega
  | negSucc less =>
      have hcast : (mantissa : ℚ) * 2 ^ (Int.negSucc less) * (2 * 10 ^ places) =
          ((2 * (mantissa * 10 ^ places) : ℕ) : ℚ) / ((2 ^ (less + 1) : ℕ) : ℚ) := by
        push_cast
        rw [zpow_negSucc]
        ring
      have hden : (0 : ℚ) < ((2 ^ (less + 1) : ℕ) : ℚ) := by positivity
      rw [hcast, lt_div_iff₀ hden, one_mul, Nat.cast_lt, unitsAt, Nat.pow_eq, Nat.pow_eq]
      exact roundDiv_pos_iff (Nat.two_pow_pos _)

/-- A positive double is printed as a number that is not negative; it is printed as a
positive one if it exceeds half a unit of the last place. -/
theorem denoted?_fixed_of_pos (places : Nat) {x : Float} (hpos : 0 < x)
    (hfinite : x.isFinite = true) :
    ∃ printed exact, denoted? (fixed places x) = some printed ∧
      (Reading.ofFloat x).value? = some exact ∧ 0 ≤ printed ∧
        (0 < printed ↔ 1 / (2 * 10 ^ places) < exact) := by
  obtain ⟨negative, m, e, hreading⟩ := (Reading.isFinite_iff x).mp hfinite
  have hsign : negative = false := by
    rcases (Reading.zero_lt_iff x).mp hpos with ⟨_, _, -, h⟩ | h
    · rw [hreading] at h
      cases h
      rfl
    · rw [hreading] at h
      cases h
  subst hsign
  have hunit : (0 : ℚ) < 10 ^ places := by positivity
  have hexact : (Reading.ofFloat x).value? = some ((m : ℚ) * 2 ^ e) := by
    rw [hreading, Reading.value?, if_neg Bool.false_ne_true, one_mul]
  have hprinted : denoted? (fixed places x) = some ((unitsAt places m e : ℚ) / 10 ^ places) := by
    rw [denoted?_fixed places hreading, if_neg Bool.false_ne_true, one_mul]
  refine ⟨_, _, hprinted, hexact, by positivity, ?_⟩
  rw [← unitsAt_pos_iff, div_pos_iff_of_pos_right hunit, Nat.cast_pos]

/-! ## Numbers that can be read -/

/-- Positional text of a double can be read unless the double is not finite. -/
theorem isSome_denoted?_written {body : Nat → Int → List Char}
    (hbody : ∀ mantissa exponent, ∃ places units, body mantissa exponent = placed places units)
    (x : Float) : (denoted? (written body x)).isSome = true ↔ x.isFinite = true := by
  rw [Reading.isFinite_iff]
  cases hreading : Reading.ofFloat x with
  | notANumber =>
      have hname : denoted? (written body x) = none := by
        rw [written, hreading, denoted?, String.toList_ofList]
        rfl
      simp [hname]
  | infinite negative =>
      have hname : denoted? (written body x) = none := by
        rw [written, hreading, denoted?, String.toList_ofList]
        cases negative <;> rfl
      simp [hname]
  | finite negative mantissa exponent =>
      obtain ⟨places, units, hplaced⟩ := hbody mantissa exponent
      have hnumber : written body x =
          String.ofList (signed negative (placed places units)) := by
        rw [written, hreading, ← hplaced]
      simp [hnumber, denoted?_signed_placed]

theorem isSome_denoted?_fixed (places : Nat) (x : Float) :
    (denoted? (fixed places x)).isSome = true ↔ x.isFinite = true :=
  isSome_denoted?_written (fun _ _ => ⟨_, _, rfl⟩) x

theorem isSome_denoted?_plain (x : Float) :
    (denoted? (plain x)).isSome = true ↔ x.isFinite = true := by
  apply isSome_denoted?_written
  intro mantissa exponent
  unfold positional
  split
  · exact ⟨_, _, rfl⟩
  · exact ⟨_, _, rfl⟩

end Decimal

end RobotPath
