import Mathlib.Algebra.Order.Field.Rat
import Mathlib.Data.List.TakeWhile
import Mathlib.Tactic.Ring
import RobotPath.Decimal.Literal
import RobotPath.Decimal.Text

/-!
# What a written number denotes

A literal denotes the number that its digits, its point and its exponent spell.
A double that is written with a fixed number of places denotes the count of units
it was rounded to, so whoever reads the text gets exactly that number.
-/

namespace RobotPath.Decimal

/-- The number that a decimal stands for. -/
def value (d : Decimal) : ℚ := d.digits * 10 ^ d.exponent

namespace Literal

/-- The number that a literal stands for. A negative zero is zero. -/
def value (l : Literal) : ℚ :=
  if l.negative then -l.magnitude.value else l.magnitude.value

end Literal

/-- The number that a whole text denotes, if it is a decimal literal. -/
def denoted? (text : String) : Option ℚ :=
  (Literal.ofChars? text.toList).map Literal.value

/-! ## Runs of digits -/

namespace Literal

theorem count_eq_ofDigitChars (digits : List Char) :
    count digits = Nat.ofDigitChars 10 digits 0 := rfl

theorem count_toDigits (n : Nat) : count (Nat.toDigits 10 n) = n :=
  Nat.ofDigitChars_ten_toDigits

theorem count_append (front back : List Char) :
    count (front ++ back) = 10 ^ back.length * count front + count back := by
  rw [count_eq_ofDigitChars, Nat.ofDigitChars_append, Nat.ofDigitChars_eq_ofDigitChars_zero]
  rfl

end Literal

theorem count_padded (width n : Nat) : Literal.count (padded width n) = n := by
  rw [padded, Literal.count_append, Literal.count_toDigits, Literal.count_eq_ofDigitChars,
    Nat.ofDigitChars_replicate_zero, Nat.mul_zero, Nat.mul_zero, Nat.zero_add]

theorem length_padded {width n : Nat} (hpos : 0 < width) (h : n < 10 ^ width) :
    (padded width n).length = width := by
  have hle := (Nat.length_toDigits_le_iff (by decide : 1 < 10) hpos).mpr h
  rw [padded, List.length_append, List.length_replicate]
  omega

theorem isDigit_of_mem_toDigits {n : Nat} {c : Char} (h : c ∈ Nat.toDigits 10 n) :
    c.isDigit = true :=
  Nat.isDigit_of_mem_toDigits (by decide) (by decide) h

theorem exists_toDigits_eq_cons (n : Nat) :
    ∃ digit rest, Nat.toDigits 10 n = digit :: rest ∧ digit.isDigit = true := by
  obtain ⟨digit, rest, h⟩ := List.exists_cons_of_ne_nil (@Nat.toDigits_ne_nil n 10)
  exact ⟨digit, rest, h, isDigit_of_mem_toDigits (h ▸ List.mem_cons_self)⟩

theorem isDigit_of_mem_padded {width n : Nat} {c : Char} (h : c ∈ padded width n) :
    c.isDigit = true := by
  rw [padded, List.mem_append, List.mem_replicate] at h
  cases h with
  | inl hzero => rw [hzero.2]; rfl
  | inr hdigit => exact isDigit_of_mem_toDigits hdigit

/-! ## Reading what was written -/

namespace Literal

variable {whole fraction : List Char}

theorem nonempty?_eq_some {digits : List Char} (h : digits ≠ []) :
    nonempty? digits = some digits := by
  rw [nonempty?, if_neg (by simpa using h)]

theorem unsigned?_digits (negative : Bool) (hwhole : ∀ c ∈ whole, c.isDigit = true)
    (hne : whole ≠ []) : unsigned? negative whole = some ⟨negative, whole, none, none⟩ := by
  have htake : whole.takeWhile Char.isDigit = whole := List.takeWhile_eq_self_iff.mpr hwhole
  have hdrop : whole.dropWhile Char.isDigit = [] := List.dropWhile_eq_nil_iff.mpr hwhole
  rw [unsigned?, htake, hdrop, nonempty?_eq_some hne]
  rfl

theorem unsigned?_point (negative : Bool) (hwhole : ∀ c ∈ whole, c.isDigit = true)
    (hne : whole ≠ []) (hfraction : ∀ c ∈ fraction, c.isDigit = true) (hne' : fraction ≠ []) :
    unsigned? negative (whole ++ '.' :: fraction) =
      some ⟨negative, whole, some fraction, none⟩ := by
  have htake : (whole ++ '.' :: fraction).takeWhile Char.isDigit = whole := by
    rw [List.takeWhile_append_of_pos hwhole, List.takeWhile_cons_of_neg (by decide),
      List.append_nil]
  have hdrop : (whole ++ '.' :: fraction).dropWhile Char.isDigit = '.' :: fraction := by
    rw [List.dropWhile_append_of_pos hwhole, List.dropWhile_cons_of_neg (by decide)]
  have htakes : fraction.takeWhile Char.isDigit = fraction :=
    List.takeWhile_eq_self_iff.mpr hfraction
  have hdrops : fraction.dropWhile Char.isDigit = [] := List.dropWhile_eq_nil_iff.mpr hfraction
  rw [unsigned?, htake, hdrop, nonempty?_eq_some hne]
  simp only [Option.bind_eq_bind, Option.bind_some, tail?, htakes, hdrops,
    nonempty?_eq_some hne']
  rfl

/-- A sign in front of digits is read as such, and digits alone have none. -/
theorem ofChars?_signed (negative : Bool) {digit : Char} (h : digit.isDigit = true)
    (rest : List Char) :
    ofChars? (signed negative (digit :: rest)) = unsigned? negative (digit :: rest) := by
  cases negative with
  | true => rfl
  | false =>
      rw [signed, if_neg Bool.false_ne_true]
      unfold ofChars?
      split
      next heq =>
        cases heq
        cases h
      next => rfl

end Literal

/-- Positional text starts with a digit, so its first character is not a sign. -/
theorem exists_placed_eq_cons (places units : Nat) :
    ∃ digit rest, placed places units = digit :: rest ∧ digit.isDigit = true := by
  unfold placed
  split
  next => exact exists_toDigits_eq_cons units
  next =>
    obtain ⟨digit, rest, h, hdigit⟩ := exists_toDigits_eq_cons (units / Nat.pow 10 places)
    dsimp only
    rw [h]
    exact ⟨digit, _, rfl, hdigit⟩

/-- Positional text: digits, and a point with more digits when there are places. -/
theorem unsigned?_placed (negative : Bool) (places units : Nat) :
    ∃ l, Literal.unsigned? negative (placed places units) = some l ∧
      l.negative = negative ∧ l.magnitude.value = units / 10 ^ places := by
  by_cases hplaces : places = 0
  · rw [placed, if_pos hplaces]
    refine ⟨_, Literal.unsigned?_digits negative (fun _ => isDigit_of_mem_toDigits)
      Nat.toDigits_ne_nil, rfl, ?_⟩
    simp [Literal.magnitude, value, Literal.count_toDigits, hplaces]
  · have hpos : 0 < places := Nat.pos_of_ne_zero hplaces
    have hunit : 0 < 10 ^ places := Nat.pow_pos (by decide)
    have hlength := length_padded hpos (Nat.mod_lt units hunit)
    rw [placed, if_neg hplaces]
    refine ⟨_, Literal.unsigned?_point negative (fun _ => isDigit_of_mem_toDigits)
      Nat.toDigits_ne_nil (fun _ => isDigit_of_mem_padded) ?_, rfl, ?_⟩
    · exact List.ne_nil_of_length_pos (by rw [Nat.pow_eq, hlength]; exact hpos)
    · simp only [Literal.magnitude, value, Option.getD_some, Option.getD_none]
      rw [Literal.count_append, Nat.pow_eq, hlength, Literal.count_toDigits, count_padded,
        Nat.div_add_mod]
      simp [div_eq_mul_inv]

/-- A sign and positional text are read as that sign and the units that were placed. -/
theorem ofChars?_signed_placed (negative : Bool) (places units : Nat) :
    ∃ l, Literal.ofChars? (signed negative (placed places units)) = some l ∧
      l.negative = negative ∧
      l.value = (if negative then -1 else 1 : ℚ) * (units / 10 ^ places) := by
  obtain ⟨l, hread, hsign, hvalue⟩ := unsigned?_placed negative places units
  obtain ⟨digit, rest, hcons, hdigit⟩ := exists_placed_eq_cons places units
  rw [hcons] at hread
  refine ⟨l, ?_, hsign, ?_⟩
  · rw [hcons, Literal.ofChars?_signed negative hdigit, hread]
  · rw [Literal.value, hsign, hvalue]
    cases negative <;> simp

theorem denoted?_signed_placed (negative : Bool) (places units : Nat) :
    denoted? (String.ofList (signed negative (placed places units))) =
      some ((if negative then -1 else 1 : ℚ) * (units / 10 ^ places)) := by
  obtain ⟨l, hread, -, hvalue⟩ := ofChars?_signed_placed negative places units
  rw [denoted?, String.toList_ofList, hread, Option.map_some, hvalue]

/-- A double that is written with a fixed number of places denotes its units. -/
theorem denoted?_fixed (places : Nat) {x : Float} {negative : Bool} {mantissa : Nat}
    {exponent : Int} (h : Reading.ofFloat x = .finite negative mantissa exponent) :
    denoted? (fixed places x) =
      some ((if negative then -1 else 1 : ℚ) *
        (unitsAt places mantissa exponent / 10 ^ places)) := by
  rw [fixed, written, h]
  exact denoted?_signed_placed negative places (unitsAt places mantissa exponent)

end RobotPath.Decimal
