import RobotPath.Geometry
import RobotPath.Json.Record

/-!
# Stored points and placements

Points are arrays of three numbers and affine maps arrays of twelve, column by
column.
-/

namespace RobotPath

namespace Vec3

def toJson (v : Vec3) : Json := .array (v.toList.map Json.ofFloat)

def ofJson? (value : Json) : Option Vec3 := do
  let v ← Json.floats? 3 value
  return ⟨v[0], v[1], v[2]⟩

end Vec3

namespace Affine3

def toJson (a : Affine3) : Json := .array (a.toList.map Json.ofFloat)

def ofJson? (value : Json) : Option Affine3 := do
  let v ← Json.floats? 12 value
  return {
    xAxis := ⟨v[0], v[1], v[2]⟩
    yAxis := ⟨v[3], v[4], v[5]⟩
    zAxis := ⟨v[6], v[7], v[8]⟩
    offset := ⟨v[9], v[10], v[11]⟩ }

end Affine3

namespace Placement

def fieldNames : List String := ["affine", "unit_scale"]

def toJson (t : Placement) : Json :=
  .record [("affine", t.affine.toJson), ("unit_scale", t.unitScale.toJson)]

def ofJson? (value : Json) : Option Placement := do
  let r ← Json.record? fieldNames value
  return {
    affine := ← r.required "affine" Affine3.ofJson?
    unitScale := ← r.required "unit_scale" Vec3.ofJson? }

end Placement

end RobotPath
