import RobotPath.Decimal.Basic

/-!
# The exact value of a double

A double is read as a sign, a mantissa and a power of two, and everything
printed is decided by exact arithmetic on these. Rounding to a number of places
goes to the nearest neighbour; a tie goes to the even one.
-/

namespace RobotPath

/-- What a double stands for. A finite one is `± mantissa * 2 ^ exponent`; zeros
keep their sign. -/
inductive Reading where
  | notANumber
  | infinite (negative : Bool)
  | finite (negative : Bool) (mantissa : Nat) (exponent : Int)
deriving Repr, DecidableEq

namespace Reading

open Float.Model (UnpackedFloat)

/-- Whether the sign is a minus. -/
def isMinus : UnpackedFloat.Sign → Bool
  | .negative => true
  | .positive => false

/-- The reading of a double. A normal number has a mantissa of 53 bits, and a
subnormal one the exponent `-1074`. -/
def ofFloat (x : Float) : Reading :=
  match x.toModel.unpack with
  | .notANumber => .notANumber
  | .infinity sign => .infinite (isMinus sign)
  | .zero sign => .finite (isMinus sign) 0 0
  | .finite sign mantissa exponent _ => .finite (isMinus sign) mantissa exponent

end Reading

namespace Decimal

/-- The double nearest to an integer, a tie to the even one. -/
def nearest (n : Int) : Float := ⟨Float.Model.ofInt n⟩

/-- The quotient rounded to the nearest natural number, a tie to the even one. -/
def roundDiv (num den : Nat) : Nat :=
  let below := num / den
  let rest := num % den
  if 2 * rest < den then below
  else if den < 2 * rest then below + 1
  else below + below % 2

/-- Units of `10 ^ -places` nearest to `mantissa * 2 ^ exponent`. -/
def unitsAt (places mantissa : Nat) (exponent : Int) : Nat :=
  match exponent with
  | .ofNat up => mantissa * Nat.pow 2 up * Nat.pow 10 places
  | .negSucc less => roundDiv (mantissa * Nat.pow 10 places) (Nat.pow 2 (less + 1))

/-- The number `mantissa * 2 ^ exponent` itself: a half is five tenths. -/
def ofBinary (mantissa : Nat) (exponent : Int) : Decimal :=
  match exponent with
  | .ofNat up => ⟨mantissa * Nat.pow 2 up, 0⟩
  | .negSucc less => ⟨mantissa * Nat.pow 5 (less + 1), .negSucc less⟩

end Decimal

end RobotPath
