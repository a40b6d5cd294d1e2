import RobotPath.Compiler.Config
import RobotPath.Compiler.Tracker
import RobotPath.Program.Basic

/-!
# Requests

A toolpath asks for moves, outputs, variable values and path speeds, in order.
Carrying out one request checks it, writes what is news and records it. A run
carries out a list of requests up to the first that fails, and keeps what was
written and logged until then.
-/

namespace RobotPath

/-- Something that a program is asked to do. -/
inductive Request where
  | travel (target : Pose)
  | follow (target : Frame)
  | output (number : UInt32) (on : Bool)
  /-- The waypoint of this index has this value of a variable. -/
  | assign (index : Nat) (name : String) (value : ProcessValue)
  /-- The waypoint of this index has this path speed. -/
  | pathSpeed (index : Nat) (value : ProcessValue)
deriving Repr, DecidableEq

/-- Instructions that were written, and events that were logged meanwhile. -/
structure Emission where
  instructions : List Instruction
  events : List Event
deriving Repr, DecidableEq

namespace Emission

def nothing : Emission := ⟨[], []⟩

/-- One thing after another. -/
def append (a b : Emission) : Emission :=
  ⟨a.instructions ++ b.instructions, a.events ++ b.events⟩

end Emission

namespace Request

/-- The path speed that a value stands for. -/
def speed (index : Nat) (value : ProcessValue) : Except MotionError Float :=
  match value.number?.filter Config.isSpeed with
  | some speed => .ok speed
  | none => .error (.unsupportedValue (.pathSpeed index value))

/-- An instruction and the pause that lets it take effect. -/
def withPause (settleTime : Option Float) (instruction : Instruction) : List Instruction :=
  instruction :: (settleTime.map Instruction.wait).toList

/-- Carries out one request. A value is checked even when it is no news. -/
def perform (settleTime : Option Float) (t : Tracker) :
    Request → Except MotionError (Tracker × Emission)
  | travel target => do
      return (← t.enter .pointToPoint, ⟨[.pointToPoint target], t.entering .pointToPoint⟩)
  | follow target => do
      return (← t.enter .continuous, ⟨[.continuous target], t.entering .continuous⟩)
  | output number on => return (t, ⟨[.digitalOutput number on], []⟩)
  | assign index name value => do
      let instruction ← Instruction.checkedAssign name value
      match t.observeVariable? name value with
      | none => return (t, .nothing)
      | some after =>
          let event := Event.variableChanged index name value
          return (after, ⟨withPause settleTime instruction, [event]⟩)
  | pathSpeed index value => do
      let speed ← speed index value
      match t.observePathSpeed? speed with
      | none => return (t, .nothing)
      | some after => return (after, ⟨[.pathSpeed speed], [.pathSpeedChanged index speed]⟩)

end Request

/-- What came of a list of requests. -/
structure Run where
  emission : Emission
  /-- Why the run stopped before its end. -/
  failure : Option MotionError
deriving Repr, DecidableEq

namespace Run

def after (r : Run) (before : Emission) : Run := { r with emission := before.append r.emission }

/-- Carries out the requests in order, until one fails. -/
def ofRequests (settleTime : Option Float) : Tracker → List Request → Run
  | _, [] => ⟨.nothing, none⟩
  | t, request :: rest =>
      match request.perform settleTime t with
      | .error e => ⟨.nothing, some e⟩
      | .ok (next, emission) => (ofRequests settleTime next rest).after emission

end Run

end RobotPath
