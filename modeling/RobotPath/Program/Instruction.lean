import RobotPath.Program.Declaration

/-!
# Instructions

The second part of a program: moves, and what is set, waited for or said between
them. Every instruction is one line, except text that is written as it stands.
-/

namespace RobotPath

/-- One step of the motion part of a program. -/
inductive Instruction where
  | pointToPoint (target : Pose)
  /-- A straight line that is blended into the next. -/
  | continuous (target : Frame)
  /-- Speed of the tool along the path, in metres a second. -/
  | pathSpeed (speed : Float)
  | lookAhead (moves : UInt32)
  /-- A program cannot hold every value; `checkedAssign` refuses those. -/
  | assign (name : String) (value : ProcessValue)
  | digitalOutput (number : UInt32) (on : Bool)
  | analogOutput (number : UInt32) (value : Float)
  | waitForInput (number : UInt32) (on : Bool)
  /-- A pause, in seconds. -/
  | wait (seconds : Float)
  | comment (message : String)
  /-- A message on the operator's panel. -/
  | print (message : String)
  | raw (text : String)
deriving BEq, Repr, DecidableEq, Inhabited

/-- How a program spells a value, unless it cannot hold it. -/
def ProcessValue.literal? (v : ProcessValue) : Except MotionError String :=
  match v with
  | .decimal value =>
      if value.isFinite then .ok v.literal
      else .error (.unsupportedValue (.notRepresentable value))
  | _ => .ok v.literal

namespace Instruction

/-- An assignment, unless a program cannot hold the value. -/
def checkedAssign (name : String) (value : ProcessValue) : Except MotionError Instruction := do
  let _ ← value.literal?
  return .assign name value

/-- How a move interpolates; other instructions do not. -/
def interpolation? : Instruction → Option Interpolation
  | .pointToPoint _ => some .pointToPoint
  | .continuous _ => some .continuous
  | _ => none

/-- Coordinates in a move have four places. -/
def coordinates (fields : List (String × Float)) : String :=
  braced (fieldList (Decimal.fixed 4) fields)

def text : Instruction → String
  | pointToPoint target => line s!"PTP {coordinates target.fields}"
  | continuous target => line s!"LIN {coordinates target.fields} C_DIS"
  | pathSpeed speed => pathSpeedLine speed
  | lookAhead moves => lookAheadLine moves
  | assign name value => line s!"{name} = {value.literal}"
  | digitalOutput number on =>
      line s!"$OUT[{number.toNat}] = {ProcessValue.switchLiteral on}"
  | analogOutput number value => line s!"$ANOUT[{number.toNat}] = {Decimal.plain value}"
  | waitForInput number on =>
      line s!"WAIT FOR $IN[{number.toNat}] == {ProcessValue.switchLiteral on}"
  | wait seconds => line s!"WAIT SEC {Decimal.plain seconds}"
  | comment message => line s!"; {message}"
  | print message => line s!"TPWrite \"{message}\""
  | raw text => text

end Instruction

end RobotPath
