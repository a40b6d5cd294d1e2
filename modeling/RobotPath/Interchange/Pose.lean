import RobotPath.Interchange.Geometry
import RobotPath.Motion.Pose

/-!
# Stored poses and moves

Axis angles and frames are records of their own fields. A pose is such a record
with one more field, which names the shape. Since that field may come last, the
whole pose is read before the shape is known; hence nothing in it may be
defective, whoever reads it, and it must not be nested too deeply.
-/

namespace RobotPath

namespace Interpolation

def toJson (i : Interpolation) : Json := .text i.name

/-- The interpolation of a stored form: the name alone, or the name as the only
field, without a value, of an object. -/
def ofJson? : Json → Option Interpolation
  | .string (some name) => ofName? name
  | .object [(some name, .null)] => ofName? name
  | _ => none

end Interpolation

namespace AxisAngles

def fieldNames : List String := ["axes", "external"]

def members (a : AxisAngles) : List (String × Json) :=
  [("axes", .array (a.axes.toList.map Json.ofFloat)),
   ("external", Json.ofOption (fun v => .array (v.toList.map Json.ofFloat)) a.external)]

def toJson (a : AxisAngles) : Json := .record a.members

def ofJson? (value : Json) : Option AxisAngles := do
  let r ← Json.record? fieldNames value
  return {
    axes := ← r.required "axes" (Json.floats? 6)
    external := ← r.optional "external" (Json.nullable? (Json.floats? 4)) none }

end AxisAngles

namespace Frame

def fieldNames : List String := ["position", "orientation"]

def members (f : Frame) : List (String × Json) :=
  [("position", f.position.toJson), ("orientation", f.orientation.toJson)]

def toJson (f : Frame) : Json := .record f.members

def ofJson? (value : Json) : Option Frame := do
  let r ← Json.record? fieldNames value
  return {
    position := ← r.required "position" Vec3.ofJson?
    orientation := ← r.required "orientation" Vec3.ofJson? }

end Frame

namespace PoseShape

def ofJson? (value : Json) : Option PoseShape := do
  let name ← Json.text? value
  [joint, cartesian].find? fun shape => shape.name = name

end PoseShape

namespace Pose

/-- How deeply values may be nested, counted from the outside of the text. -/
def deepestNesting : Nat := 127

def toJson : Pose → Json
  | .joint angles => .record (("kind", .text PoseShape.joint.name) :: angles.members)
  | .cartesian frame => .record (("kind", .text PoseShape.cartesian.name) :: frame.members)

/-- The pose of a known shape with this stored form. -/
def ofShaped? (value : Json) : PoseShape → Option Pose
  | .joint => (AxisAngles.ofJson? value).map joint
  | .cartesian => (Frame.ofJson? value).map cartesian

/-- The pose of a stored form that lies within `enclosing` records. -/
def ofJson? (enclosing : Nat) (value : Json) : Option Pose :=
  if value.isSound && value.depth + enclosing ≤ deepestNesting then
    match value with
    | .object _ => do
        let r ← Json.record? ["kind"] value
        ofShaped? value (← r.required "kind" PoseShape.ofJson?)
    | .array (kind :: fields) => do
        ofShaped? (.array fields) (← PoseShape.ofJson? kind)
    | _ => none
  else none

end Pose

end RobotPath
