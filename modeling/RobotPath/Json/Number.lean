import RobotPath.Decimal.Literal
import RobotPath.Json.Basic

/-!
# Numbers

A number without a fraction and an exponent is an integer, as long as 64 bits
hold it. Any other number is a double: as many of its first digits as 64 bits
hold, times or divided by a power of ten. The digits are rounded to a double
first and the product after that. A short number therefore becomes the double
nearest to it; a long one may become the double beside that.
-/

namespace RobotPath.Json

/-- Reads digits after `value` for as long as 64 bits hold the result, and counts
those that are left. -/
def leading (value : Nat) : List Char → Nat × Nat
  | [] => (value, 0)
  | digit :: rest =>
      let longer := 10 * value + Decimal.Literal.digitValue digit
      if longer < UInt64.size then leading longer rest else (value, rest.length + 1)

/-- The digits of a literal that count. Left over digits before the point raise
the exponent, and the digits that were read after it lower the exponent. -/
def significant (l : Decimal.Literal) : Decimal :=
  let fraction := l.fraction.getD []
  let (whole, skipped) := leading 0 l.whole
  let (digits, unread) := leading whole fraction
  ⟨digits, l.power.getD 0 + skipped - (fraction.length - unread : Nat)⟩

/-- The greatest power of ten that is a double. -/
def greatestPower : Nat := 308

/-- A power of ten that is in the range of doubles. -/
def powerOfTen (exponent : Nat) : Float := Decimal.toFloat ⟨1, exponent⟩

/-- Scales the digits by the power of ten. An exponent that is too small for one
division takes two; below that nothing is left of 64 bits. -/
def scaled (d : Decimal) : Float :=
  let value := Decimal.nearest d.digits
  match d.exponent with
  | .ofNat up =>
      if up ≤ greatestPower then value * powerOfTen up
      else if d.digits = 0 then 0
      else 1 / 0
  | .negSucc less =>
      let down := less + 1
      if down ≤ greatestPower then value / powerOfTen down
      else if down ≤ 2 * greatestPower then
        value / powerOfTen greatestPower / powerOfTen (down - greatestPower)
      else 0

/-- The double of a literal; infinite when it is out of range. -/
def toFloat (l : Decimal.Literal) : Float :=
  let value := scaled (significant l)
  if l.negative then -value else value

def number? (word : List Char) : Option Json := do
  let literal ← Decimal.Literal.ofChars? word
  if literal.hasLeadingZero then none
  else
    match literal.int? with
    | some value =>
        if Int64.minValue.toInt ≤ value ∧ value < UInt64.size then some (.integer value)
        else some (.real (toFloat literal))
    | none => some (.real (toFloat literal))

end RobotPath.Json
