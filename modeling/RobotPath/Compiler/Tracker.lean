import RobotPath.Compiler.Event
import RobotPath.Fault
import RobotPath.NameMap

/-!
# What the controller already knows

A tracker holds the last value written to every variable, the last path speed and
how far the moves have come. A value is news only when it differs from the last
one, and only legal moves are made.
-/

namespace RobotPath

/-- What has been written so far. -/
structure Tracker where
  values : NameMap ProcessValue
  pathSpeed : Option Float
  phase : Phase

namespace Tracker

/-- Nothing has been written, not even a path speed. -/
def fresh : Tracker := ⟨∅, none, .notStarted⟩

/-- Only the path speed has been written. -/
def starting (pathSpeed : Float) : Tracker := { fresh with pathSpeed := some pathSpeed }

def value? (t : Tracker) (name : String) : Option ProcessValue := t.values.find? name

/-- The tracker after a value of a variable is written, if it is news. -/
def observeVariable? (t : Tracker) (name : String) (value : ProcessValue) : Option Tracker :=
  if t.value? name == some value then none
  else some { t with values := t.values.insert name value }

/-- The tracker after a path speed is written, if it is news. -/
def observePathSpeed? (t : Tracker) (speed : Float) : Option Tracker :=
  if t.pathSpeed == some speed then none
  else some { t with pathSpeed := some speed }

def interpolation? (t : Tracker) : Option Interpolation := t.phase.interpolation?

/-- The tracker after a move, if it is legal. -/
def enter (t : Tracker) (i : Interpolation) : Except MotionError Tracker :=
  match t.phase.next? i with
  | some phase => .ok { t with phase }
  | none => .error (.input (.illegalMove i t.phase))

/-- What a legal move has to tell: that the interpolation changes. -/
def entering (t : Tracker) (i : Interpolation) : List Event :=
  if t.interpolation? = some i then [] else [.interpolationChanged t.interpolation? i]

end Tracker

end RobotPath
