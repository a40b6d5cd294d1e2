import RobotPath.Motion.Pose

/-!
# Declarations

The first part of a program: its header, the tool and the base that it brings
along, and the folds that set the start position and the path speed.
-/

namespace RobotPath

/-- The tool at the flange, as a load. -/
structure Tool where
  number : UInt32
  /-- In kilograms. -/
  mass : Float
  /-- In the frame of the flange, in millimetres. -/
  centerOfMass : Vec3
deriving BEq, Repr, DecidableEq, Inhabited

namespace Tool

/-- A light tool, balanced at the flange. -/
def standard : Tool := ⟨1, 0.5, Vec3.zero⟩

end Tool

/-- The frame that positions are given in. -/
structure Base where
  number : UInt32
  frame : Frame
deriving BEq, Repr, DecidableEq, Inhabited

namespace Base

/-- The frame of the robot itself. -/
def standard : Base := ⟨1, Vec3.zero, Vec3.zero⟩

end Base

/-- What holds before the first move. -/
structure StartSettings where
  baseNumber : UInt32
  toolNumber : UInt32
  /-- Override of point-to-point moves, in percent. -/
  speedPercent : Float
  acceleration : Float
  /-- Speed of the tool along the path, in metres a second. -/
  pathSpeed : Float
  lookAhead : UInt32
  home : Pose
deriving BEq, Repr, DecidableEq, Inhabited

/-- One entry of the first part of a program. -/
inductive Declaration where
  | header (name : String)
  | tool (tool : Tool)
  | base (base : Base)
  | speed (velocity acceleration : Float)
  | start (settings : StartSettings)
  | raw (text : String)
deriving BEq, Repr, DecidableEq, Inhabited

def line (content : String) : String := content ++ "\n"

def lines (contents : List String) : String := String.join (contents.map line)

def braced (content : String) : String := "\x7b" ++ content ++ "\x7d"

/-- How closely a blended move has to pass its target. -/
def approximationDistance : Nat := 50

/-- Sets the speed of the tool along the path. -/
def pathSpeedLine (speed : Float) : String := line s!"$VEL.CP={Decimal.fixed 4 speed}"

/-- Sets how many moves the controller plans ahead. -/
def lookAheadLine (moves : UInt32) : String := line s!"$ADVANCE={moves.toNat}"

namespace Declaration

/-- Access mode, template, the name of the program and its initialisation. -/
def headerText (name : String) : String :=
  lines
    ["&ACCESS RVP",
     "&REL 1",
     "&PARAM TEMPLATE = C:\\KRC\\Roboter\\Template\\vorgabe",
     "&PARAM EDITMASK = *",
     s!"DEF {name}()",
     "",
     ";FOLD INI",
     ";FOLD BASISTECH INI",
     "GLOBAL INTERRUPT DECL 3 WHEN $STOPMESS==TRUE DO IR_STOPM()",
     "INTERRUPT ON 3",
     "BAS(#INITMOV, 0)",
     ";ENDFOLD (BASISTECH INI)",
     ";ENDFOLD (INI)",
     ""]

def toolText (tool : Tool) : String :=
  let center := braced (fieldList Decimal.plain (["X", "Y", "Z"].zip tool.centerOfMass.toList))
  let load := braced s!"M {Decimal.plain tool.mass}, CM {center}"
  line s!"DECL TOOLDATA TOOL_{tool.number.toNat} = {load}"

def baseText (base : Base) : String :=
  let frame := braced (fieldList Decimal.plain base.frame.fields)
  line s!"DECL FRAME BASE_{base.number.toNat} = {frame}"

/-- The fold that takes the robot to its start position. -/
def startPositionText (s : StartSettings) : String :=
  let base := s.baseNumber.toNat
  let tool := s.toolNumber.toNat
  let speed := Decimal.plain s.speedPercent
  let acceleration := Decimal.plain s.acceleration
  let motion := s!"VEL {speed}, ACC {acceleration}, APO_DIST {approximationDistance}"
  let frames := s!"TOOL_NO {tool}, BASE_NO {base}, IPO_FRAME #BASE"
  lines
    [s!";FOLD STARTPOSITION - BASE IS {base}, TOOL IS {tool}, SPEED IS {speed}%, " ++
       s!"POSITION IS {s.home.describe}",
     "$BWDSTART = FALSE",
     s!"PDAT_ACT = {braced motion}",
     s!"FDAT_ACT = {braced frames}",
     s!"BAS(#PTP_PARAMS, {speed})",
     ";ENDFOLD",
     ""]

def pathSettingsText (s : StartSettings) : String :=
  line s!";FOLD LIN SPEED IS {Decimal.plain s.pathSpeed} m/sec, INTERPOLATION SETTINGS IN FOLD" ++
    pathSpeedLine s.pathSpeed ++ lookAheadLine s.lookAhead ++ line ";ENDFOLD"

def text : Declaration → String
  | header name => headerText name
  | tool t => toolText t
  | base b => baseText b
  | speed velocity acceleration =>
      lines [s!"DECL REAL VEL = {Decimal.plain velocity}",
        s!"DECL REAL ACC = {Decimal.plain acceleration}"]
  | start settings => startPositionText settings ++ pathSettingsText settings
  | raw text => text

end Declaration

end RobotPath
