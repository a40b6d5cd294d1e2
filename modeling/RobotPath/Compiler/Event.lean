import RobotPath.ProcessValue.Basic
import RobotPath.Motion.Phase

/-!
# The log of a compilation

What is worth telling about a compilation while it runs. An event is a cause with
its data; its level, its message and its fields follow from that.
-/

namespace RobotPath

/-- How much an event matters. -/
inductive Level where
  | trace
  | debug
  | info
deriving DecidableEq, Repr, Inhabited

def Level.name : Level → String
  | .trace => "TRACE"
  | .debug => "DEBUG"
  | .info => "INFO"

inductive EventField where
  | text (value : String)
  | count (value : Nat)
  | number (value : Float)
deriving Repr, DecidableEq

inductive Event where
  /-- A compilation has begun. -/
  | started (program : String)
  | interpolationChanged (before : Option Interpolation) (after : Interpolation)
  | variableChanged (index : Nat) (name : String) (value : ProcessValue)
  | pathSpeedChanged (index : Nat) (speed : Float)
  | compiled (waypoints instructions : Nat)
deriving Repr, DecidableEq

namespace Event

def level : Event → Level
  | started _ | compiled _ _ => .info
  | interpolationChanged _ _ => .trace
  | variableChanged _ _ _ | pathSpeedChanged _ _ => .debug

def message : Event → String
  | started _ => "span compile"
  | interpolationChanged _ _ => "move kind changed"
  | variableChanged _ _ _ => "variable changed"
  | pathSpeedChanged _ _ => "path speed changed"
  | compiled _ _ => "program compiled"

def describeLatest : Option Interpolation → String
  | none => "None"
  | some i => s!"Some({i.name})"

def fields : Event → List (String × EventField)
  | started program => [("program", .text program)]
  | interpolationChanged before after =>
      [("from", .text (describeLatest before)), ("to", .text after.name)]
  | variableChanged index name value =>
      [("index", .count index), ("variable", .text name), ("value", .text value.describe)]
  | pathSpeedChanged index speed => [("index", .count index), ("speed", .number speed)]
  | compiled waypoints instructions =>
      [("waypoints", .count waypoints), ("instructions", .count instructions)]

end Event

end RobotPath
