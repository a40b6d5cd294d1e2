import RobotPath.Proofs.Decimal.Canonical

/-!
# What it means for two values to be equal

A value is a switch or stands for a number, and two values should be equal when they are the
same in that sense. They are, unless an integer is compared with a decimal: there the integer
is rounded to a double first. So an integer that no double stands for is equal to the double
that it is rounded to, and two such integers may be equal to one decimal and not to each other.
-/

namespace RobotPath

/-- What a value stands for. A number has no spelling, and zeros have no sign. -/
inductive Quantity where
  | switch (on : Bool)
  | number (value : ℚ)
  | infinite (negative : Bool)
  | notANumber

/-- What a double stands for. -/
def Reading.quantity : Reading → Quantity
  | .notANumber => .notANumber
  | .infinite negative => .infinite negative
  | .finite negative mantissa exponent =>
      .number ((if negative then -1 else 1) * (mantissa * 2 ^ exponent))

namespace Reading

theorem quantity_eq_number_iff {r : Reading} {value : ℚ} :
    r.quantity = .number value ↔ r.value? = some value := by
  cases r <;> simp [quantity, value?]

/-- Doubles compare equal exactly when they stand for the same. -/
theorem beq_iff_quantity_eq {x y : Float} (hx : x ≠ Float.nan) :
    (x == y) = true ↔ (ofFloat x).quantity = (ofFloat y).quantity := by
  constructor
  · intro h
    rcases eq_or_zeros_of_beq h with rfl | ⟨_, _, hzero, hzero'⟩
    · rfl
    · rw [hzero, hzero']
      simp [quantity]
  · intro h
    cases hreading : ofFloat x with
    | notANumber => exact absurd (ofFloat_eq_notANumber_iff.mp hreading) hx
    | infinite negative =>
        have heq : x = y := by
          rw [← ofFloat_inj, hreading]
          rw [hreading] at h
          cases hreading' : ofFloat y <;> rw [hreading'] at h <;> cases h
          rfl
        rw [← heq, Float.beq_self_iff]
        exact hx
    | finite negative mantissa exponent =>
        obtain ⟨value, hvalue⟩ : ∃ value, (ofFloat x).quantity = .number value :=
          ⟨_, by rw [hreading, quantity]⟩
        exact beq_of_value?_eq (quantity_eq_number_iff.mp hvalue)
          (quantity_eq_number_iff.mp (h.symm.trans hvalue))

theorem quantity_ne_switch (r : Reading) (on : Bool) : r.quantity ≠ .switch on := by
  cases r <;> nofun

end Reading

namespace ProcessValue

/-- What a value stands for. -/
def quantity : ProcessValue → Quantity
  | .switch on => .switch on
  | .integer value => .number value.toInt
  | .decimal value => (Reading.ofFloat value).quantity

/-- An integer that no double stands for, beside a double for what it is rounded to. -/
def Blurs : ProcessValue → ProcessValue → Prop
  | .integer n, .decimal x =>
      (∀ y, (decimal y).quantity ≠ (integer n).quantity) ∧
        (decimal (nearest n)).quantity = (decimal x).quantity
  | _, _ => False

theorem nearest_ne_nan (n : Int64) : nearest n ≠ Float.nan := by
  intro h
  have hfinite := Reading.isFinite_nearest n
  rw [h] at hfinite
  cases hfinite

/-- An integer that some double stands for is rounded to itself. -/
theorem quantity_nearest {n : Int64} {x : Float}
    (h : (decimal x).quantity = (integer n).quantity) :
    (decimal (nearest n)).quantity = (integer n).quantity := by
  have hmin := n.le_toInt
  have hmax := n.toInt_lt
  have hvalue : (Reading.ofFloat x).value? = some ((n.toInt : Int) : ℚ) :=
    Reading.quantity_eq_number_iff.mp h
  exact Reading.quantity_eq_number_iff.mpr (Reading.value?_nearest_of_value? hvalue (by omega))

theorem beq_integer_iff {n m : Int64} : (integer n == integer m) = true ↔ n = m :=
  beq_iff_eq (α := Int64)

theorem quantity_integer_inj {n m : Int64} :
    (integer n).quantity = (integer m).quantity ↔ n = m := by
  rw [quantity, quantity, Quantity.number.injEq, Int.cast_inj, Int64.toInt_inj]

/-- The value in place of which a value is compared with a decimal. -/
def rounded : ProcessValue → ProcessValue
  | .integer value => .decimal (nearest value)
  | value => value

/-- Values that are not both integers compare as doubles. -/
theorem beq_iff_quantity_rounded_eq {a b : ProcessValue} (ha : a ≠ .decimal Float.nan)
    (h : ∀ n m, a = .integer n → b ≠ .integer m) :
    (a == b) = true ↔ a.rounded.quantity = b.rounded.quantity := by
  cases a with
  | switch on =>
      cases b with
      | switch on' =>
          change (on == on') = true ↔ Quantity.switch on = .switch on'
          rw [beq_iff_eq, Quantity.switch.injEq]
      | integer | decimal =>
          exact iff_of_false Bool.false_ne_true (Reading.quantity_ne_switch _ on).symm
  | integer n =>
      cases b with
      | switch on => exact iff_of_false Bool.false_ne_true (Reading.quantity_ne_switch _ on)
      | integer m => exact absurd rfl (h n m rfl)
      | decimal y => exact Reading.beq_iff_quantity_eq (nearest_ne_nan n)
  | decimal x =>
      have hx : x ≠ Float.nan := fun hnan => ha (congrArg decimal hnan)
      cases b with
      | switch on => exact iff_of_false Bool.false_ne_true (Reading.quantity_ne_switch _ on)
      | integer | decimal => exact Reading.beq_iff_quantity_eq hx

/-- An integer is rounded to a decimal that is the same number, or blurs. -/
theorem quantity_nearest_eq_iff {n : Int64} {x : Float} :
    (decimal (nearest n)).quantity = (decimal x).quantity ↔
      (integer n).quantity = (decimal x).quantity ∨ (integer n).Blurs (decimal x) := by
  constructor
  · intro h
    by_cases hheld : ∃ y, (decimal y).quantity = (integer n).quantity
    · obtain ⟨y, hy⟩ := hheld
      exact .inl ((quantity_nearest hy).symm.trans h)
    · exact .inr ⟨fun y hy => hheld ⟨y, hy⟩, h⟩
  · rintro (h | ⟨-, h⟩)
    · exact (quantity_nearest h.symm).trans h
    · exact h

theorem beq_iff_blurs {a b : ProcessValue} (ha : a ≠ .decimal Float.nan) :
    (a == b) = true ↔ a.quantity = b.quantity ∨ a.Blurs b ∨ b.Blurs a := by
  cases a with
  | switch on =>
      rw [beq_iff_quantity_rounded_eq ha fun _ _ h => by cases h]
      cases b with
      | switch | decimal => simp [rounded, Blurs]
      | integer => simp [rounded, quantity, Blurs, (Reading.quantity_ne_switch _ on).symm]
  | integer n =>
      cases b with
      | switch on =>
          rw [beq_iff_quantity_rounded_eq ha fun _ _ _ h => by cases h]
          simp [rounded, quantity, Blurs, Reading.quantity_ne_switch]
      | integer m => simp [beq_integer_iff, quantity_integer_inj, Blurs]
      | decimal y =>
          rw [beq_iff_quantity_rounded_eq ha fun _ _ _ h => by cases h]
          exact quantity_nearest_eq_iff.trans (by simp [Blurs])
  | decimal x =>
      rw [beq_iff_quantity_rounded_eq ha fun _ _ h => by cases h]
      cases b with
      | switch | decimal => simp [rounded, Blurs]
      | integer m =>
          rw [eq_comm, @eq_comm _ (decimal x).quantity]
          exact quantity_nearest_eq_iff.trans (by simp [Blurs])

theorem not_blurs_integer (a : ProcessValue) (n : Int64) : ¬ a.Blurs (integer n) := by
  cases a <;> exact id

/-- Values that are equal to one value are equal to each other, unless they are integers and
one of them blurs. -/
theorem beq_trans_or_blurs {a b c : ProcessValue} (ha : a ≠ .decimal Float.nan)
    (hb : b ≠ .decimal Float.nan) (hab : (a == b) = true) (hbc : (b == c) = true) :
    (a == c) = true ∨ ∃ n k, a = .integer n ∧ c = .integer k ∧ n ≠ k ∧ (a.Blurs b ∨ c.Blurs b) := by
  by_cases hleft : ∃ n m, a = .integer n ∧ b = .integer m
  · obtain ⟨n, m, rfl, rfl⟩ := hleft
    rw [beq_integer_iff.mp hab]
    exact .inl hbc
  by_cases hright : ∃ m k, b = .integer m ∧ c = .integer k
  · obtain ⟨m, k, rfl, rfl⟩ := hright
    rw [← beq_integer_iff.mp hbc]
    exact .inl hab
  by_cases hends : ∃ n k, a = .integer n ∧ c = .integer k
  · obtain ⟨n, k, rfl, rfl⟩ := hends
    by_cases heq : n = k
    · exact .inl (beq_integer_iff.mpr heq)
    · refine .inr ⟨n, k, rfl, rfl, heq, ?_⟩
      -- If neither of them blurs, both stand for the same as the decimal.
      rw [beq_iff_blurs ha] at hab
      rw [beq_iff_blurs hb] at hbc
      rcases hab with hab | hab | hab
      · rcases hbc with hbc | hbc | hbc
        · exact absurd (quantity_integer_inj.mp (hab.trans hbc)) heq
        · exact absurd hbc (not_blurs_integer b k)
        · exact .inr hbc
      · exact .inl hab
      · exact absurd hab (not_blurs_integer b n)
  · have hstart := (beq_iff_quantity_rounded_eq ha fun n m h h' => hleft ⟨n, m, h, h'⟩).mp hab
    have hend := (beq_iff_quantity_rounded_eq hb fun m k h h' => hright ⟨m, k, h, h'⟩).mp hbc
    exact .inl ((beq_iff_quantity_rounded_eq ha fun n k h h' => hends ⟨n, k, h, h'⟩).mpr
      (hstart.trans hend))

/-- Two values that are not NaN are equal when they stand for the same, and also when one of
them is an integer that is rounded to the other. Every such value equals itself, and equality
has no direction; it carries over from one value to the next unless integers are rounded to
the one in between. -/
theorem beq_iff_quantity_eq_or_blurs {a b c : ProcessValue} (ha : a ≠ .decimal Float.nan)
    (hb : b ≠ .decimal Float.nan) :
    ((a == b) = true ↔ a.quantity = b.quantity ∨ a.Blurs b ∨ b.Blurs a) ∧
      (a == a) = true ∧
      (a == b) = (b == a) ∧
      ((a == b) = true → (b == c) = true →
        (a == c) = true ∨
          ∃ n k, a = .integer n ∧ c = .integer k ∧ n ≠ k ∧ (a.Blurs b ∨ c.Blurs b)) := by
  refine ⟨beq_iff_blurs ha, (beq_iff_blurs ha).mpr (.inl rfl), ?_, beq_trans_or_blurs ha hb⟩
  rw [Bool.eq_iff_iff, beq_iff_blurs ha, beq_iff_blurs hb, eq_comm, or_comm (a := a.Blurs b)]

/-- The greatest power of two below which doubles hold all integers. -/
def power : ProcessValue := .decimal 9007199254740992

/-- The first integer that no double stands for. -/
def afterPower : ProcessValue := .integer 9007199254740993

theorem quantity_power : power.quantity = .number 9007199254740992 := by
  have hreading : Reading.ofFloat 9007199254740992 = .finite false (2 ^ 52) 1 := by decide +kernel
  rw [power, quantity, hreading, Reading.quantity]
  norm_num

theorem quantity_afterPower_ne : afterPower.quantity ≠ power.quantity := by
  have hvalue : (9007199254740993 : Int64).toInt = 9007199254740993 := by decide
  rw [quantity_power, afterPower, quantity, hvalue, ne_eq, Quantity.number.injEq]
  norm_num

theorem power_ne_nan : power ≠ .decimal Float.nan := by
  intro h
  have hquantity := quantity_power
  rw [h] at hquantity
  cases hquantity

theorem beq_iff_quantity_eq_or_blurs_afterPower :
    afterPower ≠ .decimal Float.nan ∧ power ≠ .decimal Float.nan ∧ (afterPower == power) = true ∧
      (power == .integer 9007199254740992) = true ∧ afterPower.Blurs power := by
  have hequal : (afterPower == power) = true := by decide +kernel
  obtain ⟨hiff, -⟩ := @beq_iff_quantity_eq_or_blurs afterPower power (.integer 9007199254740992)
    nofun power_ne_nan
  refine ⟨nofun, power_ne_nan, hequal, by decide +kernel, ?_⟩
  rcases hiff.mp hequal with hsame | hblurs | hblurs
  · exact absurd hsame quantity_afterPower_ne
  · exact hblurs
  · exact absurd hblurs (not_blurs_integer power _)

/-- Values may be equal that stand for different numbers, and two values that equal a third
one need not be equal. -/
theorem not_beq_iff_quantity_eq :
    (¬ ∀ a b : ProcessValue, a ≠ .decimal Float.nan → b ≠ .decimal Float.nan →
        ((a == b) = true ↔ a.quantity = b.quantity)) ∧
      ¬ ∀ a b c : ProcessValue, a ≠ .decimal Float.nan → b ≠ .decimal Float.nan →
        c ≠ .decimal Float.nan → (a == b) = true → (b == c) = true → (a == c) = true := by
  constructor
  · intro h
    exact quantity_afterPower_ne ((h afterPower power nofun power_ne_nan).mp (by decide +kernel))
  · intro h
    have hequal := h afterPower power (.integer 9007199254740992) nofun power_ne_nan nofun
      (by decide +kernel) (by decide +kernel)
    exact absurd (beq_integer_iff.mp hequal) (by decide)

end ProcessValue

end RobotPath
