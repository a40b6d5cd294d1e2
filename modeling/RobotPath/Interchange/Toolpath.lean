import RobotPath.Fault
import RobotPath.Interchange.ProcessValue
import RobotPath.Interchange.Geometry
import RobotPath.Json.Reader
import RobotPath.Toolpath

/-!
# Stored toolpaths

A toolpath is a record whose path speed and variables may be left out. Variables
are an object whose names are theirs, so there an array has no meaning, and of
two profiles with one name the later counts.
-/

namespace RobotPath

namespace Waypoint

def fieldNames : List String := ["position", "orientation"]

def toJson (w : Waypoint) : Json :=
  .record
    [("position", w.position.toJson), ("orientation", Json.ofOption Vec3.toJson w.orientation)]

def ofJson? (value : Json) : Option Waypoint := do
  let r ← Json.record? fieldNames value
  return {
    position := ← r.required "position" Vec3.ofJson?
    orientation := ← r.optional "orientation" (Json.nullable? Vec3.ofJson?) none }

end Waypoint

namespace NameMap

variable {α : Type}

/-- The stored form: an object with the entries in the order of their names. -/
def toJson (encode : α → Json) (m : NameMap α) : Json :=
  .record (m.entries.map fun (name, value) => (name, encode value))

/-- The map of an object. Every value is read, also one that a later one replaces. -/
def ofJson? (read? : Json → Option α) : Json → Option (NameMap α)
  | .object members => do
      let entries ← members.mapM fun (name, value) => do return (← name, ← read? value)
      return ofList entries
  | _ => none

end NameMap

namespace Toolpath

def fieldNames : List String := ["waypoints", "path_speed", "variables"]

def toJson (path : Toolpath) : Json :=
  .record
    [("waypoints", .array (path.waypoints.map Waypoint.toJson)),
     ("path_speed", Json.ofOption Profile.toJson path.speed),
     ("variables", path.profiles.toJson Profile.toJson)]

def ofJson? (value : Json) : Option Toolpath := do
  let r ← Json.record? fieldNames value
  return {
    waypoints := ← r.required "waypoints" (Json.list? Waypoint.ofJson?)
    speed := ← r.optional "path_speed" (Json.nullable? Profile.ofJson?) none
    profiles := ← r.optional "variables" (NameMap.ofJson? Profile.ofJson?) ∅ }

def read (text : String) : Except MotionError Toolpath :=
  match Json.read? text >>= ofJson? with
  | some path => .ok path
  | none => .error (.input .malformedToolpath)

end Toolpath

end RobotPath
