import RobotPath.Decimal.Text

/-!
# Process values

What a waypoint can say about a controller variable: a switch or a number. A
number is an integer or a decimal, and the two compare by value, so a whole
decimal after the same integer is no change.
-/

namespace RobotPath

/-- A value that holds from some waypoint on. -/
inductive ProcessValue where
  | switch (on : Bool)
  | integer (value : Int64)
  | decimal (value : Float)
deriving Repr, DecidableEq, Inhabited

namespace ProcessValue

/-- The double nearest to an integer value. -/
def nearest (value : Int64) : Float := Decimal.nearest value.toInt

/-- The value as a double; a switch has none. -/
def number? : ProcessValue → Option Float
  | .switch _ => none
  | .integer value => some (nearest value)
  | .decimal value => some value

/-- Switches equal themselves, integers compare exactly, and an integer beside a
decimal compares as a double. A switch never equals a number. -/
protected def beq : ProcessValue → ProcessValue → Bool
  | .switch a, .switch b => a == b
  | .integer a, .integer b => a == b
  | .integer a, .decimal b => nearest a == b
  | .decimal a, .integer b => a == nearest b
  | .decimal a, .decimal b => a == b
  | .switch _, _ | _, .switch _ => false

instance : BEq ProcessValue := ⟨ProcessValue.beq⟩

/-- How a controller program spells a switch. -/
def switchLiteral (on : Bool) : String :=
  if on then "TRUE" else "FALSE"

/-- How a controller program spells the value: numbers have six places. -/
def literal : ProcessValue → String
  | .switch on => switchLiteral on
  | .integer value => Decimal.fixed 6 (nearest value)
  | .decimal value => Decimal.fixed 6 value

/-- How logs and messages spell the value, with the kind that it is stored as. -/
def describe : ProcessValue → String
  | .switch on => if on then "Bool(true)" else "Bool(false)"
  | .integer value => s!"Int({value.toInt})"
  | .decimal value => s!"Float({Decimal.diagnostic value})"

end ProcessValue

end RobotPath
