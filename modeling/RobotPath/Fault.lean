import RobotPath.Geometry
import RobotPath.Motion.Phase
import RobotPath.ProcessValue.Basic

/-!
# What can go wrong

Every failure is a cause with the data that its message names. The wording is in
one function for each kind of failure, so code and proofs speak of causes alone.
-/

namespace RobotPath

/-- The two ways to say where the robot is. -/
inductive PoseShape where
  | joint
  | cartesian
deriving DecidableEq, Repr, Inhabited

def PoseShape.name : PoseShape → String
  | .joint => "joint"
  | .cartesian => "cartesian"

/-- A path, a pose or a move that cannot be used. -/
inductive InputFault where
  | noWaypoints
  | waypointNotFinite (index : Nat) (position : Vec3)
  | illegalMove (interpolation : Interpolation) (phase : Phase)
  | jointCount (count : Nat)
  | cartesianCount (count : Nat)
  | poseValueNotFinite (shape : PoseShape) (index : Nat) (value : Float)
  | malformedToolpath
  | described (text : String)
deriving Repr, DecidableEq

/-- A value that a controller program cannot hold. -/
inductive ValueFault where
  | notRepresentable (value : Float)
  | pathSpeed (index : Nat) (value : ProcessValue)
  | described (text : String)
deriving Repr, DecidableEq

/-- A setting that no program can be made with. -/
inductive ConfigFault where
  | homeNotFinite
  | pathSpeedNotPositive (speed : Float)
  | orientationNotFinite
  | invalidSettleTime (seconds : Float)
  | malformed
  | described (text : String)
deriving Repr, DecidableEq

/-- Why no toolpath came from its source: the cause, and what was being done
from the inside out. -/
structure SourceFailure where
  cause : String
  contexts : List String
deriving Repr, DecidableEq

/-- A program that could not be stored. -/
inductive StorageFault where
  /-- The device reported a failure of its own. -/
  | device (report : String)
  /-- The device took nothing of what it was offered. -/
  | nothingTaken
  /-- The place holds a directory. -/
  | isDirectory
  /-- The place lies in no directory. -/
  | noDirectory
deriving Repr, DecidableEq

/-- A failure of any operation. -/
inductive MotionError where
  | input (fault : InputFault)
  | unsupportedValue (fault : ValueFault)
  | config (fault : ConfigFault)
  | source (failure : SourceFailure)
  | storage (fault : StorageFault)
deriving Repr, DecidableEq

/-- Positions in messages. -/
def Vec3.describe (v : Vec3) : String :=
  s!"[{Decimal.plain v.x}, {Decimal.plain v.y}, {Decimal.plain v.z}]"

namespace InputFault

/-- The wording, after the words that say that the input is at fault. -/
def message : InputFault → String
  | noWaypoints => "toolpath has no waypoints"
  | waypointNotFinite index position =>
      s!"waypoint {index} is not finite after transform: {position.describe}"
  | illegalMove interpolation phase =>
      s!"illegal {interpolation.name} move in phase {phase.name}"
  | jointCount count => s!"joint pose needs 6 or 10 values, got {count}"
  | cartesianCount count => s!"cartesian pose needs at least X, Y, Z, got {count} values"
  | poseValueNotFinite shape index value =>
      s!"{shape.name} pose value {index} is not finite: {Decimal.plain value}"
  | malformedToolpath => "malformed toolpath"
  | described text => text

end InputFault

namespace ValueFault

def message : ValueFault → String
  | notRepresentable value => s!"{Decimal.plain value} has no KRL representation"
  | pathSpeed index value => s!"path speed at waypoint {index} is {value.describe}"
  | described text => text

end ValueFault

namespace ConfigFault

def message : ConfigFault → String
  | homeNotFinite => "home pose is not finite"
  | pathSpeedNotPositive speed => s!"path speed must be positive, got {Decimal.plain speed}"
  | orientationNotFinite => "default orientation is not finite"
  | invalidSettleTime seconds => s!"invalid settle time {Decimal.plain seconds}"
  | malformed => "malformed configuration"
  | described text => text

end ConfigFault

namespace SourceFailure

/-- The outermost context, or the cause when there is none. -/
def message (f : SourceFailure) : String :=
  f.contexts.getLast?.getD f.cause

end SourceFailure

namespace StorageFault

def message : StorageFault → String
  | device report => report
  | nothingTaken => "failed to write whole buffer"
  | isDirectory => "is a directory"
  | noDirectory => "no such directory"

end StorageFault

namespace MotionError

/-- The whole message. Failures of a source and of a device are passed on in
their own words. -/
def message : MotionError → String
  | input fault => s!"input error: {fault.message}"
  | unsupportedValue fault => s!"unsupported value: {fault.message}"
  | config fault => s!"configuration error: {fault.message}"
  | source failure => failure.message
  | storage fault => fault.message

end MotionError

/-- A source that failed with an error of this library. -/
def SourceFailure.ofError (e : MotionError) : SourceFailure := ⟨e.message, []⟩

end RobotPath
