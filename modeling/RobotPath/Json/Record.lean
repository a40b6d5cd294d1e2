import RobotPath.Decimal.Double
import RobotPath.Json.Basic

/-!
# Records and scalars

Stored data consists of records with named fields. A record is written as an
object, in any order and with fields of other names between its own, or as an
array of its fields in their declared order. Here are the two spellings brought
together, with the readers of single values.
-/

namespace RobotPath.Json

/-- The fields of a record by name, each at most once. -/
abbrev Record := List (String × Json)

/-- The fields named `names`. An object must not repeat one of them; what else it
holds is not looked at, beyond its name. An array must not be longer than the
names. -/
def record? (names : List String) : Json → Option Record
  | .array items => if items.length ≤ names.length then some (names.zip items) else none
  | .object members => do
      let named ← members.mapM fun (name, value) => name.map (·, value)
      let known := named.filter fun (name, _) => names.contains name
      if (known.map Prod.fst).Nodup then some known else none
  | _ => none

namespace Record

/-- A field that has to be there. -/
def required {α : Type} (r : Record) (name : String) (read? : Json → Option α) : Option α :=
  r.lookup name >>= read?

/-- A field that may be left out, and then has a value of its own. -/
def optional {α : Type} (r : Record) (name : String) (read? : Json → Option α) (absent : α) :
    Option α :=
  match r.lookup name with
  | some value => read? value
  | none => some absent

end Record

/-- A value or null. -/
def nullable? {α : Type} (read? : Json → Option α) : Json → Option (Option α)
  | .null => some none
  | value => (read? value).map some

/-- An array of values. -/
def list? {α : Type} (read? : Json → Option α) : Json → Option (List α)
  | .array items => items.mapM read?
  | _ => none

/-- A number in the range of doubles. -/
def float? : Json → Option Float
  | .integer value => some (Decimal.nearest value)
  | .real value => if value.isFinite then some value else none
  | _ => none

/-- Exactly `n` numbers. -/
def floats? (n : Nat) (value : Json) : Option (Vector Float n) := do
  let items ← list? float? value
  if h : items.toArray.size = n then some ⟨items.toArray, h⟩ else none

/-- An integer of 32 bits without a sign. -/
def word? : Json → Option UInt32
  | .integer value =>
      if 0 ≤ value ∧ value < UInt32.size then some (.ofNat value.toNat) else none
  | _ => none

/-- A string that is a sequence of characters. -/
def text? : Json → Option String
  | .string content => content
  | _ => none

/-- An integer of 32 bits. -/
def ofWord (value : UInt32) : Json := .integer value.toNat

end RobotPath.Json
