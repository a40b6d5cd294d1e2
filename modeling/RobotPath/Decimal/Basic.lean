/-!
# Decimals

A decimal is a natural number of units, each a power of ten. This module brings
one to its canonical spelling, without trailing zeros, and writes a count of
units with the point in its place. Signs belong to the callers: a zero can be
negative here, and a decimal has no room for that.
-/

namespace RobotPath

/-- The number `digits * 10 ^ exponent`. -/
structure Decimal where
  digits : Nat
  exponent : Int
deriving Repr, DecidableEq

namespace Decimal

def digitCount (n : Nat) : Nat :=
  (Nat.toDigits 10 n).length

/-- Digits of `n`, with zeros in front up to `width`. -/
def padded (width n : Nat) : List Char :=
  let written := Nat.toDigits 10 n
  List.replicate (width - written.length) '0' ++ written

/-- `units * 10 ^ -places`, with exactly `places` digits after the point and no
point when there are none. -/
def placed (places units : Nat) : List Char :=
  if places = 0 then Nat.toDigits 10 units
  else
    let unit := Nat.pow 10 places
    Nat.toDigits 10 (units / unit) ++ '.' :: padded places (units % unit)

/-- Moves trailing zeros from the digits into the exponent. A zero loses its
exponent, so equal numbers have one spelling. -/
def strip (d : Decimal) : Decimal :=
  if d.digits = 0 then ⟨0, 0⟩
  else if d.digits % 10 = 0 then strip ⟨d.digits / 10, d.exponent + 1⟩
  else d
termination_by d.digits
decreasing_by omega

/-- Positional notation: as many zeros before the point as the exponent asks
for, or as many places after it. -/
def positional (d : Decimal) : List Char :=
  match d.exponent with
  | .ofNat zeros => placed 0 (d.digits * Nat.pow 10 zeros)
  | .negSucc less => placed (less + 1) d.digits

/-- The power of ten of the first digit. -/
def leadingExponent (d : Decimal) : Int :=
  d.exponent + digitCount d.digits - 1

/-- One digit before the point, the others after it, and the power of ten of the
first. A single digit has no point. -/
def scientific (d : Decimal) : List Char :=
  placed (digitCount d.digits - 1) d.digits ++ 'e' :: (toString d.leadingExponent).toList

end Decimal

end RobotPath
