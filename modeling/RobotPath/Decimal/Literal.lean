import RobotPath.Decimal.Double

/-!
# Reading decimals

The grammar of a decimal literal, and the double nearest to one. Exponents are
unbounded in the grammar, so a literal whose size alone settles the answer is
never multiplied out.
-/

namespace RobotPath.Decimal

/-- A literal by its parts: digits before the point, digits after it, and the
exponent that follows. -/
structure Literal where
  negative : Bool
  whole : List Char
  fraction : Option (List Char)
  power : Option Int
deriving Repr, DecidableEq

namespace Literal

def digitValue (digit : Char) : Nat := digit.toNat - '0'.toNat

/-- The number that a run of digits spells. -/
def count (digits : List Char) : Nat :=
  digits.foldl (fun n digit => 10 * n + digitValue digit) 0

/-- A run of digits is empty when the text stops too early. -/
def nonempty? (digits : List Char) : Option (List Char) :=
  if digits.isEmpty then none else some digits

/-- The exponent after its `e`: an optional sign and at least one digit, up to
the end. -/
def power? : List Char → Option Int
  | '+' :: rest => unsigned? rest
  | '-' :: rest => (unsigned? rest).map (- ·)
  | rest => unsigned? rest
where
  unsigned? (digits : List Char) : Option Int :=
    if digits.all Char.isDigit then (nonempty? digits).map (Int.ofNat ∘ count) else none

/-- What follows the digits before the point. -/
def tail? (negative : Bool) (whole : List Char) : List Char → Option Literal
  | [] => some ⟨negative, whole, none, none⟩
  | '.' :: rest => do
      let fraction ← nonempty? (rest.takeWhile Char.isDigit)
      match rest.dropWhile Char.isDigit with
      | [] => return ⟨negative, whole, some fraction, none⟩
      | mark :: exponent =>
          if mark = 'e' ∨ mark = 'E' then
            return ⟨negative, whole, some fraction, some (← power? exponent)⟩
          else none
  | mark :: exponent =>
      if mark = 'e' ∨ mark = 'E' then do
        return ⟨negative, whole, none, some (← power? exponent)⟩
      else none

def unsigned? (negative : Bool) (text : List Char) : Option Literal := do
  let whole ← nonempty? (text.takeWhile Char.isDigit)
  tail? negative whole (text.dropWhile Char.isDigit)

/-- Reads a whole text as a literal: an optional minus, digits, an optional
fraction and an optional exponent. -/
def ofChars? : List Char → Option Literal
  | '-' :: rest => unsigned? true rest
  | text => unsigned? false text

/-- Whether the digits before the point start with a zero that counts nothing. -/
def hasLeadingZero (l : Literal) : Bool :=
  match l.whole with
  | '0' :: _ :: _ => true
  | _ => false

/-- The literal as an integer, when it is written as one. The negative zero is
not: an integer could not keep its sign. -/
def int? (l : Literal) : Option Int :=
  if l.fraction.isSome || l.power.isSome then none
  else
    let n := count l.whole
    if l.negative then (if n = 0 then none else some (-n)) else some n

def magnitude (l : Literal) : Decimal :=
  let fraction := l.fraction.getD []
  ⟨count (l.whole ++ fraction), l.power.getD 0 - fraction.length⟩

end Literal

/-- How a decimal compares with the range that doubles can tell from zero and
from infinity. -/
inductive Scale where
  | vanishing
  | ordinary
  | overflowing
deriving Repr, DecidableEq

/-- Decided from the place of the first digit. Every double lies well inside the
ordinary range. -/
def scale (d : Decimal) : Scale :=
  if d.digits = 0 then .vanishing
  else if 400 < d.leadingExponent then .overflowing
  else if d.leadingExponent < -400 then .vanishing
  else .ordinary

/-- The double nearest to a decimal; infinite when it is too large. -/
def toFloat (d : Decimal) : Float :=
  match d.scale with
  | .vanishing => 0
  | .overflowing => 1 / 0
  | .ordinary => Float.ofScientific d.digits (d.exponent < 0) d.exponent.natAbs

/-- The single-precision number nearest to a decimal; infinite when it is too
large. -/
def toFloat32 (d : Decimal) : Float32 :=
  match d.scale with
  | .vanishing => 0
  | .overflowing => 1 / 0
  | .ordinary => Float32.ofScientific d.digits (d.exponent < 0) d.exponent.natAbs

namespace Literal

/-- The double nearest to a literal. A negative zero keeps its sign. -/
def toFloat (l : Literal) : Float :=
  if l.negative then -l.magnitude.toFloat else l.magnitude.toFloat

def toFloat32 (l : Literal) : Float32 :=
  if l.negative then -l.magnitude.toFloat32 else l.magnitude.toFloat32

end Literal

end RobotPath.Decimal
