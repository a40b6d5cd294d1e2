import RobotPath.Proofs.Compiler.Checks
import RobotPath.Proofs.Compiler.History

/-!
# The program of a path

A program can be told from the path alone, without a tracker and without phases:
every waypoint after the first has a block of its own, and the only thing that a
block looks at is which values were assigned last by the instructions before it. Where
the moves go is told coordinate by coordinate.
-/

namespace RobotPath

namespace Reference

variable (c : Compiler) (path : Toolpath)

/-- What is declared, part by part. -/
def declarations (config : Config) : List Declaration :=
  [.header config.programName] ++ (config.tool.map Declaration.tool).toList ++
    (config.base.map Declaration.base).toList ++
    [.start
      { baseNumber := config.baseNumber
        toolNumber := config.toolNumber
        speedPercent := config.speedPercent
        acceleration := config.acceleration
        pathSpeed := config.pathSpeed
        lookAhead := config.lookAhead
        home := config.home }]

/-- The output of the process is switched by one instruction, if there is one. -/
def output (on : Bool) : List Instruction :=
  (c.config.processOutput.map (Instruction.digitalOutput · on)).toList

/-- A variable with a value at the waypoint is assigned, unless the latest assignment
before gave it an equal one. -/
def assignment (index : Nat) (before : List Instruction) : String × Profile → List Instruction
  | (name, profile) =>
      match profile.get? index with
      | none => []
      | some value =>
          if (lastAssigned? before name).any (· == value) then []
          else .assign name value :: (c.config.settleTime.map Instruction.wait).toList

/-- A path speed at the waypoint is set, unless it is the latest one. -/
def speedChange (index : Nat) (before : List Instruction) : List Instruction :=
  match (path.speed.bind (·.get? index)).bind ProcessValue.number? with
  | none => []
  | some speed =>
      if lastSpeed c.config.pathSpeed before == speed then [] else [.pathSpeed speed]

/-- A coordinate of a placed point: the parts that come from its three coordinates are summed
up in order, then shifted, and at last turned into the units of the controller. -/
def coordinate (p : Vec3) (fromX fromY fromZ shift unit : Float) : Float :=
  (fromX * p.x + fromY * p.y + fromZ * p.z + shift) * unit

/-- The position of a point in the frame of the controller. -/
def position (t : Placement) (p : Vec3) : Vec3 :=
  let ⟨⟨xx, xy, xz⟩, ⟨yx, yy, yz⟩, ⟨zx, zy, zz⟩, shift⟩ := t.affine
  { x := coordinate p xx yx zx shift.x t.unitScale.x
    y := coordinate p xy yy zy shift.y t.unitScale.y
    z := coordinate p xz yz zz shift.z t.unitScale.z }

/-- Where a waypoint is, in its own orientation or in that of all waypoints without one. -/
def target (waypoint : Waypoint) : Frame where
  position := position c.placement waypoint.position
  orientation :=
    match waypoint.orientation with
    | some orientation => orientation
    | none => c.config.defaultOrientation

/-- What a later waypoint adds: its variables in order, its speed, and the move. -/
def block (before : List Instruction) : Waypoint × Nat → List Instruction
  | (waypoint, index) =>
      let assignments := following (assignment c index) before (c.config.ordered path.profiles)
      assignments ++ speedChange c path index (before ++ assignments) ++
        [.continuous (target c waypoint)]

/-- From home to the first waypoint, along the others, and home again. -/
def instructions (first : Waypoint) (rest : List Waypoint) : List Instruction :=
  let opening := [.pointToPoint c.config.home] ++ output c true ++
    [.pointToPoint (.cartesian (target c first))]
  opening ++ following (block c path) opening (rest.zipIdx 1) ++ output c false ++
    [.pointToPoint c.config.home]

/-- The program of a path with these waypoints. -/
def program (first : Waypoint) (rest : List Waypoint) : Program where
  name := c.config.programName
  declarations := declarations c.config
  instructions := instructions c path first rest

end Reference

namespace Compiler

variable (c : Compiler) (path : Toolpath)

theorem frame_eq_target (waypoint : Waypoint) : c.frame waypoint = Reference.target c waypoint := by
  obtain ⟨position, orientation⟩ := waypoint
  cases orientation <;> rfl

/-- What requests write in view of what was written before them. -/
def writes (before : List Instruction) (rs : List Request) : List Instruction :=
  following (Request.written c.config.settleTime c.config.pathSpeed) before rs

theorem writes_append (before : List Instruction) (rs more : List Request) :
    c.writes before (rs ++ more) =
      c.writes before rs ++ c.writes (before ++ c.writes before rs) more :=
  following_append rs more

theorem writes_output (before : List Instruction) (on : Bool) :
    c.writes before (c.processOutput on) = Reference.output c on := by
  unfold processOutput Reference.output
  cases c.config.processOutput <;> rfl

theorem writes_assignments (before : List Instruction) (index : Nat) :
    c.writes before ((c.config.ordered path.profiles).filterMap
      fun (name, profile) => (profile.get? index).map (Request.assign index name)) =
        following (Reference.assignment c index) before (c.config.ordered path.profiles) := by
  rw [writes, following_filterMap]
  refine following_congr ?_
  rintro ⟨name, profile⟩ - before
  dsimp only [Reference.assignment]
  cases profile.get? index <;> rfl

theorem writes_speed (before : List Instruction) (index : Nat) :
    c.writes before ((path.speed.bind (·.get? index)).map (Request.pathSpeed index)).toList =
      Reference.speedChange c path index before := by
  unfold Reference.speedChange
  cases path.speed.bind (·.get? index) with
  | none => rfl
  | some value => exact List.append_nil _

/-- What comes before the move of a later waypoint, and the move. -/
theorem writes_approach (before : List Instruction) (waypoint : Waypoint) {index : Nat}
    (h : 0 < index) :
    c.writes before (c.approach path (c.frame waypoint) index) =
      Reference.block c path before (waypoint, index) := by
  rw [c.approach_of_pos path _ h, settings, writes_append, writes_append, writes_assignments,
    writes_speed, frame_eq_target]
  rfl

/-- Waypoint after waypoint, the requests write the blocks of the reference. -/
theorem writes_path (before : List Instruction) (rest : List Waypoint) {start : Nat}
    (hstart : 0 < start) :
    c.writes before (((rest.map c.frame).zipIdx start).flatMap fun (frame, index) =>
        c.approach path frame index) =
      following (Reference.block c path) before (rest.zipIdx start) := by
  induction rest generalizing before start with
  | nil => rfl
  | cons waypoint rest ih =>
      simp only [List.map_cons, List.zipIdx_cons, List.flatMap_cons, following]
      rw [writes_append, c.writes_approach path before waypoint hstart, ih _ (Nat.succ_pos start)]

/-- All requests of a path together write the instructions of the reference. -/
theorem writes_requests (first : Waypoint) (rest : List Waypoint) :
    c.writes [] (c.requests path ((first :: rest).map c.frame)) =
      Reference.instructions c path first rest := by
  have htravel (before : List Instruction) (target : Pose) :
      c.writes before [.travel target] = [.pointToPoint target] := rfl
  have hfirst : c.approach path (c.frame first) 0 =
      [.travel (.cartesian (Reference.target c first))] := by
    rw [frame_eq_target]
    rfl
  simp only [requests, Reference.instructions, List.map_cons, List.zipIdx_cons, List.flatMap_cons,
    hfirst, writes_append, writes_output, htravel, c.writes_path path _ rest Nat.one_pos,
    Nat.zero_add, List.nil_append, List.append_assoc]

/-- A program that a compilation gives is that of the reference. -/
theorem compile_eq_reference {p : Program} (h : (c.compile path).result = .ok p) :
    ∃ first rest, path.waypoints = first :: rest ∧ p = Reference.program c path first rest := by
  obtain ⟨hne, instructions, hrun, rfl⟩ := c.compile_eq_ok path h
  obtain ⟨first, rest, hwaypoints⟩ := List.exists_cons_of_ne_nil hne
  refine ⟨first, rest, hwaypoints, ?_⟩
  rw [Run.result_eq_following (Tracks.starting c.config.pathSpeed) hrun, hwaypoints]
  exact congrArg c.program (c.writes_requests path first rest)

/-- A compiler with a tool, a base and an output. It turns a path by a right angle, shifts it,
and takes it from metres to millimetres. -/
def turning : Compiler where
  config := { equipped.config with processOutput := some 7 }
  placement := .metersToMillimeters ⟨⟨0, 1, 0⟩, ⟨-1, 0, 0⟩, ⟨0, 0, 1⟩, ⟨0.5, 0, 0.25⟩⟩

/-- A path with an orientation at its end. A variable keeps its value and then changes it, and
the speed changes once. -/
def pathToTurn : Toolpath :=
  { (Toolpath.ofWaypoints [⟨Vec3.zero, none⟩, ⟨⟨1, 0, 0⟩, none⟩, ⟨⟨1, 2, 0⟩, none⟩,
      ⟨⟨1, 2, 3⟩, some ⟨10, 20, 30⟩⟩]).withVariable "A"
        ⟨[none, some (.integer 1), some (.decimal 1), some (.integer 2)]⟩ with
    speed := some ⟨[none, none, some (.decimal 0.25)]⟩ }

theorem compile_eq_reference_turning :
    ∃ p first rest, (turning.compile pathToTurn).result = .ok p ∧
      pathToTurn.waypoints = first :: rest ∧ p = Reference.program turning pathToTurn first rest ∧
      (first :: rest).map (Reference.target turning) =
        [⟨⟨500, 0, 250⟩, ⟨0, 90, 0⟩⟩, ⟨⟨500, 1000, 250⟩, ⟨0, 90, 0⟩⟩,
          ⟨⟨-1500, 1000, 250⟩, ⟨0, 90, 0⟩⟩, ⟨⟨-1500, 1000, 3250⟩, ⟨10, 20, 30⟩⟩] := by
  obtain ⟨p, hresult⟩ := exists_ok_of_isOk turning pathToTurn (by decide +kernel)
  obtain ⟨first, rest, hwaypoints, hprogram⟩ := compile_eq_reference turning pathToTurn hresult
  refine ⟨p, first, rest, hresult, hwaypoints, hprogram, ?_⟩
  rw [← hwaypoints]
  decide +kernel

end Compiler

end RobotPath
