import RobotPath.Program.Declaration
import RobotPath.Toolpath

/-!
# Configuration

The settings that hold for a whole program, and the check that a program can be
made with them.
-/

namespace RobotPath

/-- Settings of the compiler. -/
structure Config where
  programName : String
  baseNumber : UInt32
  toolNumber : UInt32
  /-- Override of point-to-point moves, in percent. -/
  speedPercent : Float
  acceleration : Float
  /-- Speed of the tool when the path starts, in metres a second. -/
  pathSpeed : Float
  lookAhead : UInt32
  /-- Visited before the first waypoint and after the last. -/
  home : Pose
  /-- Taken by waypoints that have no orientation of their own. -/
  defaultOrientation : Vec3
  /-- Variables that are assigned first, in this order. -/
  variablePriority : List String
  /-- Pause after every assignment, in seconds. -/
  settleTime : Option Float
  /-- Output that is on while the path runs. -/
  processOutput : Option UInt32
  tool : Option Tool
  base : Option Base
deriving BEq, Repr, DecidableEq, Inhabited

namespace Config

/-- An upright pose with the arm over the work area. -/
def standardHome : AxisAngles := ⟨#v[5, -90, 100, 5, -10, -5], none⟩

/-- The settings that hold unless others are given. -/
def standard : Config where
  programName := "kuka_program"
  baseNumber := 0
  toolNumber := 0
  speedPercent := 15
  acceleration := 100
  pathSpeed := 0.05
  lookAhead := 3
  home := .joint standardHome
  defaultOrientation := Frame.uprightOrientation
  variablePriority := ["E_SPEED", "E_ENABLE", "F_SPEED"]
  settleTime := some 0.001
  processOutput := none
  tool := none
  base := none

def startSettings (c : Config) : StartSettings where
  baseNumber := c.baseNumber
  toolNumber := c.toolNumber
  speedPercent := c.speedPercent
  acceleration := c.acceleration
  pathSpeed := c.pathSpeed
  lookAhead := c.lookAhead
  home := c.home

/-- A speed that the tool can be told to have. -/
def isSpeed (speed : Float) : Bool := speed.isFinite && 0 < speed

/-- A time that the robot can be told to wait. -/
def isPause (seconds : Float) : Bool := seconds.isFinite && 0 ≤ seconds

/-- Fails at the first setting that no program can be made with. -/
def validate (c : Config) : Except ConfigFault Unit := do
  if !c.home.isFinite then
    throw .homeNotFinite
  if !isSpeed c.pathSpeed then
    throw (.pathSpeedNotPositive c.pathSpeed)
  if !c.defaultOrientation.isFinite then
    throw .orientationNotFinite
  match c.settleTime with
  | some seconds => if !isPause seconds then throw (.invalidSettleTime seconds)
  | none => pure ()

/-- Declarations of a program: the header, the tool and the base if they are set,
and the start settings. -/
def declarations (c : Config) : List Declaration :=
  [.header c.programName] ++ (c.tool.map Declaration.tool).toList ++
    (c.base.map Declaration.base).toList ++ [.start c.startSettings]

/-- The variables of a path in the order they are assigned in: those with a
priority first, then the others by name. A name that is listed twice counts where
it is listed first. -/
def ordered {α : Type} (c : Config) (profiles : NameMap α) : List (String × α) :=
  let listed := c.variablePriority.eraseDups.filterMap fun name =>
    (profiles.find? name).map (name, ·)
  listed ++ profiles.entries.filter fun entry => !c.variablePriority.contains entry.1

end Config

end RobotPath
