import RobotPath.ProcessValue.Profile
import RobotPath.Geometry
import RobotPath.NameMap

/-!
# Toolpaths

The input of the compiler: an ordered path, with the process values that hold
along it.
-/

namespace RobotPath

/-- A point of the path in its local frame. Without an orientation it takes the
one that the configuration has for such points. -/
structure Waypoint where
  position : Vec3
  orientation : Option Vec3
deriving BEq, Repr, DecidableEq, Inhabited

/-- A path with the speed of the tool along it, and a profile for each of the
controller variables that it sets. -/
structure Toolpath where
  waypoints : List Waypoint
  speed : Option Profile
  profiles : NameMap Profile
deriving BEq, Inhabited

namespace Toolpath

def ofWaypoints (waypoints : List Waypoint) : Toolpath := ⟨waypoints, none, ∅⟩

/-- The path with one more variable; an earlier profile of that name is dropped. -/
def withVariable (path : Toolpath) (name : String) (profile : Profile) : Toolpath :=
  { path with profiles := path.profiles.insert name profile }

end Toolpath

end RobotPath
