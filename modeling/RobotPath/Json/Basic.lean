/-!
# JSON values

A value as it was written, before anyone asks what it means. Two defects that
the grammar allows are kept and not refused: a string that holds half of a
surrogate pair, and a number beyond the range of doubles. Whoever reads a value
refuses them where they matter; in a field that nobody reads they do not.
-/

namespace RobotPath

/-- A JSON value. Objects keep the order and the repetitions of their members. -/
inductive Json where
  | null
  | bool (value : Bool)
  /-- A number without a point or an exponent, in the range of 64-bit integers. -/
  | integer (value : Int)
  /-- Any other number; infinite when it is out of range. -/
  | real (value : Float)
  /-- A text; `none` when it is not a sequence of characters. -/
  | string (value : Option String)
  | array (items : List Json)
  | object (members : List (Option String × Json))
deriving Repr, Inhabited

namespace Json

/-- A string that is a sequence of characters. -/
def text (value : String) : Json := .string (some value)

/-- An object with well-formed names. -/
def record (members : List (String × Json)) : Json :=
  .object (members.map fun (name, value) => (some name, value))

/-- A finite number, or null in place of any other. -/
def ofFloat (value : Float) : Json := if value.isFinite then .real value else .null

/-- A value, or null in place of none. -/
def ofOption {α : Type} (encode : α → Json) (value : Option α) : Json :=
  (value.map encode).getD .null

mutual

/-- How many arrays and objects lie inside one another. -/
def depth : Json → Nat
  | .array items => itemsDepth items + 1
  | .object members => membersDepth members + 1
  | _ => 0

def itemsDepth : List Json → Nat
  | [] => 0
  | item :: rest => max item.depth (itemsDepth rest)

def membersDepth : List (Option String × Json) → Nat
  | [] => 0
  | (_, value) :: rest => max value.depth (membersDepth rest)

end

mutual

/-- Whether every string is a sequence of characters and every number in range,
at any depth. -/
def isSound : Json → Bool
  | .null | .bool _ | .integer _ => true
  | .real value => value.isFinite
  | .string value => value.isSome
  | .array items => itemsSound items
  | .object members => membersSound members

def itemsSound : List Json → Bool
  | [] => true
  | item :: rest => item.isSound && itemsSound rest

def membersSound : List (Option String × Json) → Bool
  | [] => true
  | (name, value) :: rest => name.isSome && value.isSound && membersSound rest

end

end Json

end RobotPath
