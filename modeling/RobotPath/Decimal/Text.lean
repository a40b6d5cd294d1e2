import RobotPath.Decimal.Shortest

/-!
# Numbers as text

A double is written in one of three ways. A controller reads the first two:
positional digits, either the shortest that read back or rounded to a fixed
number of places. The third is for logs, where a whole number keeps a `.0` and
very large and very small ones an exponent.
-/

namespace RobotPath.Decimal

/-- Puts a minus in front of a negative number. Zeros keep theirs. -/
def signed (negative : Bool) (written : List Char) : List Char :=
  if negative then '-' :: written else written

/-- Writes what is not a number or infinite by name, and a finite number by
`body` from its mantissa and exponent. -/
def written (body : Nat → Int → List Char) (x : Float) : String :=
  String.ofList <|
    match Reading.ofFloat x with
    | .notANumber => "NaN".toList
    | .infinite negative => signed negative "inf".toList
    | .finite negative mantissa exponent => signed negative (body mantissa exponent)

/-- Positional notation with `places` digits after the point, rounded from the
exact value of the double. -/
def fixed (places : Nat) (x : Float) : String :=
  written (fun mantissa exponent => placed places (unitsAt places mantissa exponent)) x

/-- Positional notation with the fewest digits that read back. -/
def plain (x : Float) : String :=
  written (fun mantissa exponent => (shortest mantissa exponent).positional) x

/-- Logs write numbers of these leading powers of ten without an exponent. -/
def loggedPositionally (d : Decimal) : Bool :=
  d.digits = 0 || (-4 ≤ d.leadingExponent && d.leadingExponent < 16)

/-- The notation of logs: positional with at least one digit after the point, or
scientific. -/
def logged (d : Decimal) : List Char :=
  if loggedPositionally d then
    if d.exponent < 0 then d.positional else d.positional ++ ".0".toList
  else d.scientific

/-- The fewest digits that read back, in the notation of logs. -/
def diagnostic (x : Float) : String :=
  written (fun mantissa exponent => logged (shortest mantissa exponent)) x

end RobotPath.Decimal
