/-!
# Moves and the shape of a program

A program opens with point-to-point moves, follows its path in one continuous
stretch and returns with point-to-point moves. A continuous move starts from a
known pose, so it is legal neither at the very beginning nor after the return.
-/

namespace RobotPath

/-- How the robot gets to the target of a move. -/
inductive Interpolation where
  /-- Axis by axis, to any pose. -/
  | pointToPoint
  /-- Along a straight line in space. -/
  | continuous
deriving DecidableEq, Repr, Inhabited

namespace Interpolation

def name : Interpolation → String
  | .pointToPoint => "PointToPoint"
  | .continuous => "Continuous"

def ofName? (name : String) : Option Interpolation :=
  [pointToPoint, continuous].find? fun i => i.name = name

theorem ofName?_name (i : Interpolation) : ofName? i.name = some i := by
  cases i <;> decide

end Interpolation

/-- How far a program has come. -/
inductive Phase where
  | notStarted
  | approach
  | path
  | homeward
deriving DecidableEq, Repr, Inhabited

namespace Phase

def name : Phase → String
  | .notStarted => "NotStarted"
  | .approach => "Approach"
  | .path => "Path"
  | .homeward => "Return"

/-- The phase after a move, if the move is legal. -/
def next? : Phase → Interpolation → Option Phase
  | .notStarted, .pointToPoint | .approach, .pointToPoint => some .approach
  | .approach, .continuous | .path, .continuous => some .path
  | .path, .pointToPoint | .homeward, .pointToPoint => some .homeward
  | .notStarted, .continuous | .homeward, .continuous => none

/-- The interpolation of the latest move; there is none before the first. -/
def interpolation? : Phase → Option Interpolation
  | .notStarted => none
  | .approach | .homeward => some .pointToPoint
  | .path => some .continuous

/-- A legal move becomes the latest one. -/
theorem interpolation?_next {phase after : Phase} {i : Interpolation}
    (h : phase.next? i = some after) : after.interpolation? = some i := by
  cases phase <;> cases i <;> simp_all [next?] <;> subst h <;> rfl

end Phase

end RobotPath
