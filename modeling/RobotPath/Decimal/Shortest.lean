import RobotPath.Decimal.Double

/-!
# The fewest digits that read back

The reals that round to a double form an interval around it. Among the decimals
in that interval the shortest one is chosen, and of several that short the
nearest to the double. Both are found on grids of ever finer powers of ten: if
any point of a grid lies in the interval, so does one of the two neighbours of
the double on that grid, hence only these are tried.

The interval is kept in quarters of the double's own unit, where its ends are
whole numbers: half a unit away, or a quarter below a power of two, where the
doubles underneath lie twice as dense.
-/

namespace RobotPath.Decimal

/-- The least exponent of a double; below it there is no denser neighbourhood. -/
def leastExponent : Int := -1074

/-- Whether the doubles just below `mantissa * 2 ^ exponent` lie twice as dense. -/
def narrowBelow (mantissa : Nat) (exponent : Int) : Bool :=
  mantissa == Nat.pow 2 52 && leastExponent < exponent

/-- A double with the interval that rounds to it, all three as counts of one
power of ten. The ends belong to the interval when `closed`. -/
structure Interval where
  low : Nat
  value : Nat
  high : Nat
  closed : Bool
  exponent : Int
deriving Repr, DecidableEq

namespace Interval

/-- The interval of `mantissa * 2 ^ exponent`. A tie between two doubles goes to
the one with the even mantissa, so exactly that one owns its ends. -/
def ofBinary (mantissa : Nat) (exponent : Int) : Interval :=
  let scaled (quarters : Nat) := Decimal.ofBinary quarters (exponent - 2)
  let below := if narrowBelow mantissa exponent then 1 else 2
  let value := scaled (4 * mantissa)
  { low := (scaled (4 * mantissa - below)).digits
    value := value.digits
    high := (scaled (4 * mantissa + 2)).digits
    closed := mantissa % 2 == 0
    exponent := value.exponent }

def holds (i : Interval) (count : Nat) : Bool :=
  if i.closed then i.low ≤ count && count ≤ i.high
  else i.low < count && count < i.high

/-- The nearer neighbour of the value among multiples of `10 ^ zeros` that lies
in the interval; of two equally near ones the greater. -/
def neighbour? (i : Interval) (zeros : Nat) : Option Nat :=
  let step := Nat.pow 10 zeros
  let down := i.value / step * step
  let up := down + step
  if i.holds down && i.holds up then
    some (if i.value - down < up - i.value then down else up)
  else if i.holds down then some down
  else if i.holds up then some up
  else none

/-- The first hit, from one digit to all the digits of the value. The last grid
holds the value itself, so the search never comes back empty. -/
def shortest (i : Interval) : Decimal :=
  let all := digitCount i.value
  let found := (List.range all).findSome? fun more => i.neighbour? (all - 1 - more)
  strip ⟨found.getD i.value, i.exponent⟩

end Interval

/-- The shortest decimal that reads back as the double `mantissa * 2 ^ exponent`. -/
def shortest (mantissa : Nat) (exponent : Int) : Decimal :=
  if mantissa = 0 then ⟨0, 0⟩ else (Interval.ofBinary mantissa exponent).shortest

end RobotPath.Decimal
