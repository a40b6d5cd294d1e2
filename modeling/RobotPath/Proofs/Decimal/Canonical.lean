import RobotPath.Proofs.Decimal.Whole

/-!
# One double for one number

A double other than zero has a mantissa of 53 bits, or a shorter one with the least
exponent. So a number is told by one mantissa and one exponent only, doubles compare equal
exactly when they stand for the same, and the double nearest to an integer is that integer
whenever any double is.
-/

namespace RobotPath

open Float.Model (UnpackedFloat Format totalExponent)
open Float.Model.UnpackedFloat

namespace Reading

/-! ## The form of a double -/

theorem canonical_unpack {bits : BitVec Format.binary64.numBits} {sign : Sign} {mantissa : Nat}
    {exponent : Int} {hpos : 0 < mantissa}
    (h : unpack Format.binary64 bits = .finite sign mantissa exponent hpos) :
    Canonical mantissa exponent := by
  unfold unpack at h
  dsimp only at h
  have hlt : (unpackMantissa bits).toNat < 2 ^ 52 := (unpackMantissa bits).isLt
  split at h
  next => split at h <;> cases h
  next =>
    split at h
    next hzero =>
      split at h
      next => cases h
      next =>
        cases h
        have hexponent : (unpackExponent bits).toNat = 0 := by rw [hzero]; rfl
        refine ⟨hpos, by omega, ?_, ?_⟩
        · change -1074 ≤ ((unpackExponent bits).toNat : Int) - (1023 + 52) + 1
          omega
        · change -1074 < ((unpackExponent bits).toNat : Int) - (1023 + 52) + 1 → _
          omega
    next hne =>
      cases h
      have hexponent : (unpackExponent bits).toNat ≠ 0 := fun hzero =>
        hne (BitVec.eq_of_toNat_eq hzero)
      have hmantissa : (1#1 ++ unpackMantissa bits).toNat =
          2 ^ 52 + (unpackMantissa bits).toNat := toNat_leading_append _
      rw [hmantissa]
      refine ⟨by omega, by omega, ?_, fun _ => by omega⟩
      change -1074 ≤ ((unpackExponent bits).toNat : Int) - (1023 + 52)
      omega

theorem canonical_of_finite {x : Float} {negative : Bool} {mantissa : Nat} {exponent : Int}
    (h : ofFloat x = .finite negative mantissa exponent) (hpos : 0 < mantissa) :
    Canonical mantissa exponent := by
  unfold ofFloat at h
  split at h
  next => cases h
  next => cases h
  next =>
    cases h
    cases hpos
  next hunpack =>
    cases h
    exact canonical_unpack hunpack

/-! ## Comparison by value -/

section value

variable {mantissa mantissa' : Nat} {exponent exponent' : Int}

theorem Canonical.value_pos (h : Canonical mantissa exponent) :
    (0 : ℚ) < mantissa * 2 ^ exponent :=
  mul_pos (Nat.cast_pos.mpr h.pos) (zpow_pos two_pos exponent)

/-- With the greater exponent the mantissa is full, so the other one would be too long. -/
theorem Canonical.exponent_le (h : Canonical mantissa exponent) (h' : Canonical mantissa' exponent')
    (heq : (mantissa : ℚ) * 2 ^ exponent = mantissa' * 2 ^ exponent') : exponent' ≤ exponent := by
  by_contra hlt
  have hmantissa : (mantissa : ℚ) = mantissa' * 2 ^ (exponent' - exponent) := by
    rw [zpow_sub₀ two_ne_zero, ← mul_div_assoc, ← heq,
      mul_div_cancel_right₀ _ (zpow_ne_zero exponent two_ne_zero)]
  have htwo : (2 : ℚ) ≤ 2 ^ (exponent' - exponent) := by
    calc (2 : ℚ) = 2 ^ (1 : ℤ) := (zpow_one 2).symm
      _ ≤ 2 ^ (exponent' - exponent) := zpow_le_zpow_right₀ one_le_two (by omega)
  have hfull : (2 : ℚ) ^ 52 ≤ mantissa' := by
    have hleast := h.least_le
    exact_mod_cast h'.full (by omega)
  have hlong : (2 : ℚ) ^ 53 ≤ mantissa := by
    calc (2 : ℚ) ^ 53 = 2 ^ 52 * 2 := pow_succ 2 52
      _ ≤ mantissa' * 2 ^ (exponent' - exponent) := by gcongr
      _ = mantissa := hmantissa.symm
  exact Nat.not_le.mpr h.lt (by exact_mod_cast hlong)

/-- A number has one mantissa and one exponent. -/
theorem Canonical.eq_of_value_eq (h : Canonical mantissa exponent)
    (h' : Canonical mantissa' exponent')
    (heq : (mantissa : ℚ) * 2 ^ exponent = mantissa' * 2 ^ exponent') :
    mantissa = mantissa' ∧ exponent = exponent' := by
  obtain rfl : exponent = exponent' :=
    Int.le_antisymm (h'.exponent_le h heq.symm) (h.exponent_le h' heq)
  have hmantissa := mul_right_cancel₀ (zpow_ne_zero exponent two_ne_zero) heq
  exact ⟨by exact_mod_cast hmantissa, rfl⟩

end value

theorem isMinus_inj {sign sign' : Sign} : isMinus sign = isMinus sign' ↔ sign = sign' := by
  cases sign <;> cases sign' <;> simp [isMinus]

/-- A double can be told from its reading. -/
theorem ofFloat_inj {x y : Float} : ofFloat x = ofFloat y ↔ x = y := by
  refine ⟨fun h => ?_, congrArg ofFloat⟩
  have hunpack : x.toModel.unpack = y.toModel.unpack := by
    unfold ofFloat at h
    cases hx : x.toModel.unpack <;> cases hy : y.toModel.unpack <;> simp_all [isMinus_inj]
    -- A zero beside a number that is none.
    · omega
    · omega
  rw [← Float.toBits_inj]
  exact UInt64.toBitVec_inj.mp ((unpack_inj_of_valid x.toModel.valid y.toModel.valid).mp hunpack)

theorem ofFloat_eq_notANumber_iff {x : Float} : ofFloat x = .notANumber ↔ x = Float.nan :=
  @ofFloat_inj x Float.nan

theorem eq_zero_of_mantissa {x : Float} {negative : Bool} {exponent : Int}
    (h : ofFloat x = .finite negative 0 exponent) : x = if negative then -0 else 0 := by
  have hexponent : exponent = 0 := by
    unfold ofFloat at h
    split at h
    next => cases h
    next => cases h
    next =>
      cases h
      rfl
    next hpos _ =>
      cases h
      cases hpos
  subst hexponent
  rw [← ofFloat_inj, h]
  cases negative <;> rfl

theorem signed_value_eq_zero_iff {negative : Bool} {mantissa : Nat} {exponent : Int} :
    (if negative then -1 else 1 : ℚ) * (mantissa * 2 ^ exponent) = 0 ↔ mantissa = 0 := by
  have hsign : (if negative then -1 else 1 : ℚ) ≠ 0 := by cases negative <;> norm_num
  rw [mul_eq_zero, mul_eq_zero, Nat.cast_eq_zero]
  simp [hsign, zpow_ne_zero]

/-- A number other than zero has one sign. -/
theorem eq_of_signed_eq {negative negative' : Bool} {a b : ℚ} (ha : 0 < a) (hb : 0 < b)
    (h : (if negative then -1 else 1) * a = (if negative' then -1 else 1) * b) :
    negative = negative' ∧ a = b := by
  cases negative <;> cases negative' <;> simp at h
  · exact ⟨rfl, h⟩
  · linarith
  · linarith
  · exact ⟨rfl, h⟩

/-- Doubles that stand for one number compare equal, also when they are different zeros. -/
theorem beq_of_value?_eq {x y : Float} {value : ℚ} (hx : (ofFloat x).value? = some value)
    (hy : (ofFloat y).value? = some value) : (x == y) = true := by
  cases hreading : ofFloat x with
  | notANumber | infinite => rw [hreading] at hx; cases hx
  | finite n m e =>
      cases hreading' : ofFloat y with
      | notANumber | infinite => rw [hreading'] at hy; cases hy
      | finite n' m' e' =>
          rw [hreading, value?, Option.some_inj] at hx
          rw [hreading', value?, Option.some_inj] at hy
          by_cases hzero : value = 0
          · have hm := signed_value_eq_zero_iff.mp (hx.trans hzero)
            have hm' := signed_value_eq_zero_iff.mp (hy.trans hzero)
            subst hm hm'
            rw [eq_zero_of_mantissa hreading, eq_zero_of_mantissa hreading']
            cases n <;> cases n' <;> decide
          · have hpos : 0 < m := Nat.pos_of_ne_zero fun h =>
              hzero (hx.symm.trans (signed_value_eq_zero_iff.mpr h))
            have hpos' : 0 < m' := Nat.pos_of_ne_zero fun h =>
              hzero (hy.symm.trans (signed_value_eq_zero_iff.mpr h))
            have hcanonical := canonical_of_finite hreading hpos
            have hcanonical' := canonical_of_finite hreading' hpos'
            obtain ⟨rfl, hvalue⟩ := eq_of_signed_eq hcanonical.value_pos hcanonical'.value_pos
              (hx.trans hy.symm)
            obtain ⟨rfl, rfl⟩ := hcanonical.eq_of_value_eq hcanonical' hvalue
            have heq : x = y := ofFloat_inj.mp (hreading.trans hreading'.symm)
            rw [heq, Float.beq_self_iff, ne_eq, ← ofFloat_eq_notANumber_iff, hreading']
            intro h
            cases h

/-! ## The double nearest to a double -/

/-- An integer that ends in zeros loses them, and nothing else. -/
theorem round_mul_two_pow {sign : Sign} {mantissa : Nat} {hpos : 0 < mantissa} (zeros : Nat)
    (hlog : mantissa.log2 = 52) :
    UnpackedFloat.round Format.binary64 sign (mantissa * 2 ^ zeros) 0 =
      .finite sign mantissa zeros hpos := by
  have hcanonical : Canonical mantissa zeros := canonical_of_log2 hlog (by omega)
  have htarget := hcanonical.targetExponent_mul_two_pow zeros
  have hround := hcanonical.roundWithAccuracy_eq sign zeros
  rw [Int.sub_self] at htarget hround
  have hdecrease : decreaseExponent (mantissa * 2 ^ zeros) 0 (zeros : Int) =
      (mantissa * 2 ^ zeros, 0) := by
    unfold decreaseExponent
    rw [show ((0 : Int) - zeros).toNat = 0 by omega]
    rfl
  unfold UnpackedFloat.round
  simp only [htarget, hdecrease, hround]

/-- An integer that is too long for a mantissa is a double only with zeros at its end. -/
theorem exists_eq_mul_two_pow {mantissa n : Nat} {exponent : Int}
    (hcanonical : Canonical mantissa exponent) (hn : 2 ^ 53 < n)
    (h : (mantissa : ℚ) * 2 ^ exponent = n) :
    mantissa.log2 = 52 ∧ ∃ zeros : Nat, n = mantissa * 2 ^ zeros := by
  have hpos : 0 < exponent := by
    by_contra hle
    have hone : (2 : ℚ) ^ exponent ≤ 1 := zpow_le_one_of_nonpos₀ one_le_two (not_lt.mp hle)
    have hsmall : (n : ℚ) ≤ mantissa := by
      calc (n : ℚ) = mantissa * 2 ^ exponent := h.symm
        _ ≤ mantissa * 1 := by gcongr
        _ = mantissa := mul_one _
    have hlt := hcanonical.lt
    have hle : n ≤ mantissa := by exact_mod_cast hsmall
    omega
  refine ⟨(Nat.log2_eq_iff (Nat.ne_of_gt hcanonical.pos)).mpr
    ⟨hcanonical.full (by omega), hcanonical.lt⟩, exponent.toNat, ?_⟩
  have hexponent : (2 : ℚ) ^ exponent = 2 ^ exponent.toNat := by
    rw [← zpow_natCast, Int.toNat_of_nonneg hpos.le]
  rw [hexponent] at h
  exact_mod_cast h.symm

/-- An integer that is a double is the double nearest to it. -/
theorem value?_nearest_of_value? {x : Float} {n : Int} (h : (ofFloat x).value? = some (n : ℚ))
    (hn : n.natAbs < 2 ^ 100) : (ofFloat (Decimal.nearest n)).value? = some (n : ℚ) := by
  by_cases hshort : n.natAbs ≤ 2 ^ 53
  · exact value?_nearest hshort
  · refine value?_nearest_of_round fun sign hpos => ?_
    cases hreading : ofFloat x with
    | notANumber | infinite => rw [hreading] at h; cases h
    | finite negative mantissa exponent =>
        rw [hreading, value?, Option.some_inj] at h
        have hvalue : (mantissa : ℚ) * 2 ^ exponent = n.natAbs := by
          have habs := congrArg (|·|) h
          have hsign : |(if negative then -1 else 1 : ℚ)| = 1 := by cases negative <;> norm_num
          rw [abs_mul, hsign, one_mul, abs_of_nonneg (by positivity)] at habs
          rw [habs, Nat.cast_natAbs, Int.cast_abs]
        have hmantissa : 0 < mantissa := by
          refine Nat.pos_of_ne_zero fun hzero => Nat.ne_of_gt hpos ?_
          rw [hzero, Nat.cast_zero, zero_mul] at hvalue
          exact_mod_cast hvalue.symm
        obtain ⟨hlog, zeros, hzeros⟩ :=
          exists_eq_mul_two_pow (canonical_of_finite hreading hmantissa) (by omega) hvalue
        have hfew : zeros < 100 := by
          refine (Nat.pow_lt_pow_iff_right (by decide : 1 < 2)).mp (Nat.lt_of_le_of_lt ?_ hn)
          rw [hzeros]
          exact Nat.le_mul_of_pos_left _ hmantissa
        have hround := @round_mul_two_pow sign mantissa hmantissa zeros hlog
        rw [hzeros, hround]
        unfold ofFloat
        rw [@unpack_pack sign mantissa zeros hmantissa hlog (by omega) (by omega)]
        simp [value?]

end Reading

end RobotPath
