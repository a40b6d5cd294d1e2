import RobotPath.Fault

/-!
# Poses

Where the robot is to go: by the angles of its axes, or by the frame that its
tool is to reach. A pose is shown as a list of labelled numbers, and every line
of a program that mentions it is written from that list.
-/

namespace RobotPath

/-- Angles of the robot's own axes in degrees, and of the external axes if there
are any. -/
structure AxisAngles where
  axes : Vector Float 6
  external : Option (Vector Float 4)
deriving BEq, Repr, DecidableEq, Inhabited

/-- A position in millimetres and an orientation as A, B and C in degrees. -/
structure Frame where
  position : Vec3
  orientation : Vec3
deriving BEq, Repr, DecidableEq, Inhabited

inductive Pose where
  | joint (angles : AxisAngles)
  | cartesian (frame : Frame)
deriving BEq, Repr, DecidableEq, Inhabited

/-- Labelled numbers as one list, each written by `number`. -/
def fieldList (number : Float → String) (fields : List (String × Float)) : String :=
  ", ".intercalate (fields.map fun (label, value) => s!"{label} {number value}")

/-- Fails at the first value that is not finite. -/
def checkFinite (shape : PoseShape) (values : List Float) : Except MotionError Unit :=
  match values.zipIdx.find? fun (value, _) => !value.isFinite with
  | none => .ok ()
  | some (value, index) => .error (.input (.poseValueNotFinite shape index value))

namespace AxisAngles

def axisLabels : List String := ["A1", "A2", "A3", "A4", "A5", "A6"]

def externalLabels : List String := ["E1", "E2", "E3", "E4"]

/-- All angles, the external ones last. -/
def toList (a : AxisAngles) : List Float :=
  a.axes.toList ++ (a.external.map Vector.toList).getD []

def isFinite (a : AxisAngles) : Bool := a.toList.all Float.isFinite

def fields (a : AxisAngles) : List (String × Float) :=
  (axisLabels ++ externalLabels).zip a.toList

/-- The same angles with all external axes; those that were missing are at zero. -/
def complete (a : AxisAngles) : AxisAngles :=
  { a with external := some (a.external.getD (Vector.replicate 4 0)) }

/-- Angles from six values, or from ten of which four are external. -/
def ofList (values : List Float) : Except MotionError AxisAngles := do
  if values.length ≠ 6 ∧ values.length ≠ 10 then
    throw (.input (.jointCount values.length))
  checkFinite .joint values
  let axes := Vector.ofFn fun i : Fin 6 => values.getD i 0
  let external := Vector.ofFn fun i : Fin 4 => values.getD (6 + i) 0
  return ⟨axes, if values.length = 10 then some external else none⟩

end AxisAngles

namespace Frame

def labels : List String := ["X", "Y", "Z", "A", "B", "C"]

/-- The orientation of frames that come without one. -/
def uprightOrientation : Vec3 := ⟨0, 90, 0⟩

def toList (f : Frame) : List Float := f.position.toList ++ f.orientation.toList

def isFinite (f : Frame) : Bool := f.position.isFinite && f.orientation.isFinite

def fields (f : Frame) : List (String × Float) := labels.zip f.toList

/-- A frame from a position, and an orientation if all three angles of it follow.
What comes after them has to be finite as well, and is not used. -/
def ofList (values : List Float) : Except MotionError Frame :=
  match values with
  | x :: y :: z :: angles => do
      checkFinite .cartesian values
      match angles with
      | a :: b :: c :: _ => return ⟨⟨x, y, z⟩, ⟨a, b, c⟩⟩
      | _ => return ⟨⟨x, y, z⟩, uprightOrientation⟩
  | _ => .error (.input (.cartesianCount values.length))

end Frame

namespace Pose

def isFinite : Pose → Bool
  | .joint angles => angles.isFinite
  | .cartesian frame => frame.isFinite

/-- The numbers that a move to the pose mentions. -/
def fields : Pose → List (String × Float)
  | .joint angles => angles.fields
  | .cartesian frame => frame.fields

/-- The pose in words, for people who read the program. All axes are listed. -/
def describe : Pose → String
  | .joint angles => fieldList Decimal.plain angles.complete.fields
  | .cartesian frame => fieldList Decimal.plain frame.fields

end Pose

end RobotPath
