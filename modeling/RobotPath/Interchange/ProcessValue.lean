import RobotPath.ProcessValue.Profile
import RobotPath.Json.Record

/-!
# Stored process values

A value is stored without its kind: a boolean is a switch, an integer of 64 bits
an integer, and every other number a decimal. Since a decimal is written with a
point or an exponent, each value comes back as the kind that it was.
-/

namespace RobotPath

namespace ProcessValue

def toJson : ProcessValue → Json
  | .switch on => .bool on
  | .integer value => .integer value.toInt
  | .decimal value => .ofFloat value

def ofJson? : Json → Option ProcessValue
  | .bool on => some (.switch on)
  | .integer value =>
      if Int64.minValue.toInt ≤ value ∧ value ≤ Int64.maxValue.toInt then
        some (.integer (.ofInt value))
      else some (.decimal (Decimal.nearest value))
  | .real value => if value.isFinite then some (.decimal value) else none
  | _ => none

end ProcessValue

namespace Profile

/-- The stored form: an array with null for every gap. -/
def toJson (p : Profile) : Json :=
  .array (p.values.map (Json.ofOption ProcessValue.toJson))

def ofJson? (value : Json) : Option Profile :=
  (Json.list? (Json.nullable? ProcessValue.ofJson?) value).map Profile.mk

end Profile

end RobotPath
