import RobotPath.Compiler.Request

/-!
# The compiler

A compiler is a configuration and a placement. It checks the configuration and
places every waypoint before anything else, turns the path into requests, and
carries these out. A program exists only when all of them succeed.
-/

namespace RobotPath

/-- Turns toolpaths into programs. -/
structure Compiler where
  config : Config
  placement : Placement
deriving BEq, Repr, DecidableEq, Inhabited

/-- The log of a compilation and its result. -/
structure Compilation where
  events : List Event
  result : Except MotionError Program

namespace Compiler

/-- The compiler that leaves points where they are and takes the standard settings. -/
def standard : Compiler := ⟨Config.standard, Placement.identity⟩

/-- The frame that the tool is to reach at a waypoint. -/
def frame (c : Compiler) (w : Waypoint) : Frame :=
  ⟨c.placement.apply w.position, w.orientation.getD c.config.defaultOrientation⟩

/-- The frame at the waypoint of an index, which has to be finite. -/
def finiteFrame (c : Compiler) (index : Nat) (w : Waypoint) : Except InputFault Frame :=
  let frame := c.frame w
  if frame.isFinite then .ok frame else .error (.waypointNotFinite index frame.position)

/-- The frames of a path, and all that is checked before the first request: the
settings, that there is a path, and every frame of it. -/
def frames (c : Compiler) (path : Toolpath) : Except MotionError (List Frame) := do
  c.config.validate.mapError .config
  if path.waypoints.isEmpty then
    throw (.input .noWaypoints)
  (path.waypoints.zipIdx.mapM fun (w, index) => c.finiteFrame index w).mapError .input

/-- What the waypoint of an index says about variables, in the order of
assignment, and then about the path speed. -/
def settings (c : Compiler) (path : Toolpath) (index : Nat) : List Request :=
  let assigned := (c.config.ordered path.profiles).filterMap fun (name, profile) =>
    (profile.get? index).map (Request.assign index name)
  let speed := (path.speed.bind (·.get? index)).map (Request.pathSpeed index)
  assigned ++ speed.toList

/-- How the robot gets to the waypoint of an index. The first one is a travel;
the later ones follow the path, with their settings in front. -/
def approach (c : Compiler) (path : Toolpath) (frame : Frame) : Nat → List Request
  | 0 => [.travel (.cartesian frame)]
  | index + 1 => c.settings path (index + 1) ++ [.follow frame]

/-- Switches the output of the process, if it has one. -/
def processOutput (c : Compiler) (on : Bool) : List Request :=
  (c.config.processOutput.map (Request.output · on)).toList

/-- All requests of a path: from home, along the frames, and home again. -/
def requests (c : Compiler) (path : Toolpath) (frames : List Frame) : List Request :=
  [.travel c.config.home] ++ c.processOutput true ++
    frames.zipIdx.flatMap (fun (frame, index) => c.approach path frame index) ++
    c.processOutput false ++ [.travel c.config.home]

def program (c : Compiler) (instructions : List Instruction) : Program :=
  ⟨c.config.programName, c.config.declarations, instructions⟩

/-- Carries out the requests of a path whose frames are known. -/
def run (c : Compiler) (path : Toolpath) (frames : List Frame) : Run :=
  Run.ofRequests c.config.settleTime (Tracker.starting c.config.pathSpeed)
    (c.requests path frames)

/-- Compiles a toolpath. The log tells how far a compilation came that failed. -/
def compile (c : Compiler) (path : Toolpath) : Compilation :=
  let started := Event.started c.config.programName
  match c.frames path with
  | .error e => ⟨[started], .error e⟩
  | .ok frames =>
      let run := c.run path frames
      let events := started :: run.emission.events
      match run.failure with
      | some e => ⟨events, .error e⟩
      | none =>
          let program := c.program run.emission.instructions
          let compiled := Event.compiled frames.length program.instructions.length
          ⟨events ++ [compiled], .ok program⟩

def compileFrom (c : Compiler) : Except SourceFailure Toolpath → Compilation
  | .ok path => c.compile path
  | .error failure => ⟨[], .error (.source failure)⟩

end Compiler

end RobotPath
