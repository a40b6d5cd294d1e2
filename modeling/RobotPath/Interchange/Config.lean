import RobotPath.Compiler.Config
import RobotPath.Interchange.Pose
import RobotPath.Json.Reader

/-!
# Stored configurations

A configuration stores what differs from the standard settings: every field may
be left out. Null is a value of its own for the settings that may be absent. The
records within it have to be complete.
-/

namespace RobotPath

namespace Tool

def fieldNames : List String := ["number", "mass", "center_of_mass"]

def toJson (tool : Tool) : Json :=
  .record
    [("number", Json.ofWord tool.number),
     ("mass", Json.ofFloat tool.mass),
     ("center_of_mass", tool.centerOfMass.toJson)]

def ofJson? (value : Json) : Option Tool := do
  let r ← Json.record? fieldNames value
  return {
    number := ← r.required "number" Json.word?
    mass := ← r.required "mass" Json.float?
    centerOfMass := ← r.required "center_of_mass" Vec3.ofJson? }

end Tool

namespace Base

/-- The names of the stored fields. Those of the frame are not set apart. -/
def fieldNames : List String := ["number", "position", "orientation"]

def toJson (base : Base) : Json :=
  .record (("number", Json.ofWord base.number) :: base.frame.members)

def ofJson? (value : Json) : Option Base := do
  let r ← Json.record? fieldNames value
  let number ← r.required "number" Json.word?
  let position ← r.required "position" Vec3.ofJson?
  let orientation ← r.required "orientation" Vec3.ofJson?
  return ⟨number, position, orientation⟩

end Base

namespace StartSettings

def fieldNames : List String :=
  ["base", "tool", "speed_percent", "acceleration", "path_speed", "look_ahead", "home"]

def toJson (s : StartSettings) : Json :=
  .record
    [("base", Json.ofWord s.baseNumber),
     ("tool", Json.ofWord s.toolNumber),
     ("speed_percent", Json.ofFloat s.speedPercent),
     ("acceleration", Json.ofFloat s.acceleration),
     ("path_speed", Json.ofFloat s.pathSpeed),
     ("look_ahead", Json.ofWord s.lookAhead),
     ("home", s.home.toJson)]

def ofJson? (value : Json) : Option StartSettings := do
  let r ← Json.record? fieldNames value
  return {
    baseNumber := ← r.required "base" Json.word?
    toolNumber := ← r.required "tool" Json.word?
    speedPercent := ← r.required "speed_percent" Json.float?
    acceleration := ← r.required "acceleration" Json.float?
    pathSpeed := ← r.required "path_speed" Json.float?
    lookAhead := ← r.required "look_ahead" Json.word?
    home := ← r.required "home" (Pose.ofJson? 1) }

end StartSettings

namespace Config

def fieldNames : List String :=
  ["program_name", "base_number", "tool_number", "speed_percent", "acceleration", "path_speed",
   "look_ahead_distance", "home_pose", "default_orientation", "variable_priority",
   "assignment_settle_time", "process_output", "tool_data", "base_frame"]

def members (c : Config) : List (String × Json) :=
  [("program_name", .text c.programName),
   ("base_number", Json.ofWord c.baseNumber),
   ("tool_number", Json.ofWord c.toolNumber),
   ("speed_percent", Json.ofFloat c.speedPercent),
   ("acceleration", Json.ofFloat c.acceleration),
   ("path_speed", Json.ofFloat c.pathSpeed),
   ("look_ahead_distance", Json.ofWord c.lookAhead),
   ("home_pose", c.home.toJson),
   ("default_orientation", c.defaultOrientation.toJson),
   ("variable_priority", .array (c.variablePriority.map Json.text)),
   ("assignment_settle_time", Json.ofOption Json.ofFloat c.settleTime),
   ("process_output", Json.ofOption Json.ofWord c.processOutput),
   ("tool_data", Json.ofOption Tool.toJson c.tool),
   ("base_frame", Json.ofOption Base.toJson c.base)]

def toJson (c : Config) : Json := .record c.members

/-- The configuration of a stored form: the standard settings, with the fields
that are there in their place. -/
def ofJson? (value : Json) : Option Config := do
  let r ← Json.record? fieldNames value
  let d := standard
  return {
    programName := ← r.optional "program_name" Json.text? d.programName
    baseNumber := ← r.optional "base_number" Json.word? d.baseNumber
    toolNumber := ← r.optional "tool_number" Json.word? d.toolNumber
    speedPercent := ← r.optional "speed_percent" Json.float? d.speedPercent
    acceleration := ← r.optional "acceleration" Json.float? d.acceleration
    pathSpeed := ← r.optional "path_speed" Json.float? d.pathSpeed
    lookAhead := ← r.optional "look_ahead_distance" Json.word? d.lookAhead
    home := ← r.optional "home_pose" (Pose.ofJson? 1) d.home
    defaultOrientation := ← r.optional "default_orientation" Vec3.ofJson? d.defaultOrientation
    variablePriority :=
      ← r.optional "variable_priority" (Json.list? Json.text?) d.variablePriority
    settleTime :=
      ← r.optional "assignment_settle_time" (Json.nullable? Json.float?) d.settleTime
    processOutput := ← r.optional "process_output" (Json.nullable? Json.word?) d.processOutput
    tool := ← r.optional "tool_data" (Json.nullable? Tool.ofJson?) d.tool
    base := ← r.optional "base_frame" (Json.nullable? Base.ofJson?) d.base }

def read (text : String) : Except MotionError Config :=
  match Json.read? text >>= ofJson? with
  | some c => .ok c
  | none => .error (.config .malformed)

end Config

end RobotPath
