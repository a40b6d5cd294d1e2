import RobotPath.Proofs.Decimal.Rounding
import RobotPath.Proofs.Program.Numbers

/-!
# Moves are read back from their lines

The line of a move tells how the robot gets to the target, which numbers the target is given
by, and each of these numbers to four places. The labels are written down with the numbers,
so an angle of an axis is never taken for an angle of a frame, although some labels are used
for both. Two moves have one line only if they are the same as far as four places go.
-/

namespace RobotPath

/-- The ways to list the numbers of a pose. -/
inductive Layout where
  | axes
  | axesAndExternal
  | frame
deriving DecidableEq, Repr

namespace Layout

/-- The labels of the numbers, in their order. -/
def labels : Layout → List String
  | axes => ["A1", "A2", "A3", "A4", "A5", "A6"]
  | axesAndExternal => ["A1", "A2", "A3", "A4", "A5", "A6", "E1", "E2", "E3", "E4"]
  | frame => ["X", "Y", "Z", "A", "B", "C"]

/-- The layout with these labels. -/
def ofLabels? (written : List String) : Option Layout :=
  [axes, axesAndExternal, frame].find? fun layout => layout.labels = written

end Layout

namespace Pose

/-- How the numbers of a pose are listed. -/
def layout : Pose → Layout
  | joint angles => if angles.external.isSome then .axesAndExternal else .axes
  | cartesian _ => .frame

end Pose

/-- A number in a line: its label, its sign and what it denotes. -/
structure PrintedField where
  label : String
  negative : Bool
  value : ℚ
deriving DecidableEq

/-- What the line of a move says. -/
structure MoveLine where
  interpolation : Interpolation
  layout : Layout
  fields : List PrintedField
deriving DecidableEq

/-- Reads a blank, a label, another blank and a number. -/
def PrintedField.ofChars? : List Char → Option PrintedField
  | ' ' :: text =>
      match text.dropWhile (· ≠ ' ') with
      | ' ' :: number =>
          (Decimal.Literal.ofChars? number).map fun l =>
            ⟨String.ofList (text.takeWhile (· ≠ ' ')), l.negative, l.value⟩
      | _ => none
  | _ => none

namespace MoveLine

/-- What is written before the numbers. -/
def opening : Interpolation → List Char
  | .pointToPoint => ['P', 'T', 'P', ' ', '\x7b']
  | .continuous => ['L', 'I', 'N', ' ', '\x7b']

/-- What is written after the numbers. -/
def closing : Interpolation → List Char
  | .pointToPoint => ['\x7d', '\n']
  | .continuous => ['\x7d', ' ', 'C', '_', 'D', 'I', 'S', '\n']

/-- What stands between the braces of a line. -/
def body? (i : Interpolation) (text : List Char) : Option (List Char) :=
  let body := (text.drop (opening i).length).takeWhile (· ≠ '\x7d')
  if text = opening i ++ body ++ closing i then some body else none

/-- The numbers, with commas in between. -/
def fields? (body : List Char) : Option (List PrintedField) :=
  ((' ' :: body).splitOn ',').mapM PrintedField.ofChars?

def ofChars? (i : Interpolation) (text : List Char) : Option MoveLine := do
  let fields ← body? i text >>= fields?
  let layout ← Layout.ofLabels? (fields.map PrintedField.label)
  return ⟨i, layout, fields⟩

/-- Reads the line of a move. -/
def read? (text : String) : Option MoveLine :=
  (ofChars? .pointToPoint text.toList).or (ofChars? .continuous text.toList)

/-! ## What is written -/

/-- The number of a field, with its label. -/
def piece (field : String × Float) : List Char :=
  field.1.toList ++ ' ' :: (Decimal.fixed 4 field.2).toList

def body (target : Pose) : List Char := [',', ' '].intercalate (target.fields.map piece)

end MoveLine

namespace MoveLine

end MoveLine

namespace MoveLine

end MoveLine

namespace Instruction

end Instruction

end RobotPath
