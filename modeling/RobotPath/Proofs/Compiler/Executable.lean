import RobotPath.Proofs.Compiler.Legs
import RobotPath.Proofs.Decimal.Nearest
import RobotPath.Proofs.Program.Numbers

/-!
# Programs that can be carried out

Every instruction of a compiled program holds finite numbers and is written with them. The
checks that see to that stand in different places: those of the settings cover the home
pose and the pauses, those of the frames the moves, and each value is checked where it is
asked for. So an instruction is traced back to the request that writes it, and the request
to the check that it has passed.
-/

namespace RobotPath

/-- An instruction that a controller can carry out the way it is written. -/
structure Instruction.Executable (i : Instruction) : Prop where
  isFinite : ∀ x ∈ i.floats, x.isFinite = true
  speed : ∀ speed, i = .pathSpeed speed → 0 < speed
  pause : ∀ seconds, i = .wait seconds → 0 ≤ seconds
  literal : ∀ name value, i = .assign name value →
    ∃ text, value.literal? = .ok text ∧ i.text = line s!"{name} = {text}"
  /-- The text is made of pieces, and the numbers among them are those of the instruction. -/
  text : i.text = Piece.join i.pieces ∧ Piece.numbers i.pieces = i.floats
  isPositional : ∀ piece ∈ i.pieces, ∀ x, piece.number? = some x → IsPositional piece.text
  /-- The number of an output is written in digits. -/
  output : ∀ number on, i = .digitalOutput number on → IsPositional (toString number.toNat) ∧
    i.text = line s!"$OUT[{number.toNat}] = {ProcessValue.switchLiteral on}"

theorem ProcessValue.literal?_eq_ok {value : ProcessValue}
    (h : ∀ x ∈ value.number?, x.isFinite = true) : value.literal? = .ok value.literal := by
  cases value with
  | switch | integer => rfl
  | decimal x => rw [literal?, if_pos (h x rfl)]

theorem ProcessValue.isFinite_of_literal? {value : ProcessValue} {text : String}
    (h : value.literal? = .ok text) : ∀ x ∈ value.number?, x.isFinite = true := by
  cases value with
  | switch => nofun
  | integer n =>
      rintro _ ⟨⟩
      exact Reading.isFinite_nearest n
  | decimal x =>
      rintro _ ⟨⟩
      simp only [literal?] at h
      split at h
      next hfinite => exact hfinite
      next => cases h

/-- How an instruction is written leaves nothing to check but its data. -/
theorem Instruction.executable_of_isFinite {i : Instruction}
    (hfinite : ∀ x ∈ i.floats, x.isFinite = true)
    (hspeed : ∀ speed, i = .pathSpeed speed → 0 < speed)
    (hpause : ∀ seconds, i = .wait seconds → 0 ≤ seconds) : i.Executable where
  isFinite := hfinite
  speed := hspeed
  pause := hpause
  literal := by
    rintro name value rfl
    refine ⟨value.literal, ProcessValue.literal?_eq_ok fun x hx => ?_, rfl⟩
    exact hfinite x (Option.mem_toList.mpr hx)
  text := ⟨i.text_eq_join_pieces, i.numbers_pieces⟩
  isPositional := by
    intro piece hpiece x hx
    refine Piece.isPositional_text hx (hfinite x ?_)
    rw [← i.numbers_pieces]
    exact List.mem_filterMap.mpr ⟨piece, hpiece, hx⟩
  output := by
    rintro number on rfl
    exact ⟨isPositional_toString number.toNat, rfl⟩

namespace Request

/-- A move has a finite target. -/
def IsFinite : Request → Prop
  | .travel target => target.isFinite = true
  | .follow target => target.isFinite = true
  | .output .. | .assign .. | .pathSpeed .. => True

theorem isFinite_of_still {r : Request} (h : r.interpolation? = none) : r.IsFinite := by
  cases r with
  | travel | follow => cases h
  | output | assign | pathSpeed => trivial

/-- What a request writes can be carried out, if moves go to finite targets and pauses are
pauses. -/
theorem Writes.executable {settleTime : Option Float} {r : Request} {i : Instruction}
    (h : r.Writes settleTime i) (hr : r.IsFinite)
    (hpause : ∀ seconds ∈ settleTime, Config.isPause seconds = true) : i.Executable := by
  cases h with
  | travel target =>
      exact Instruction.executable_of_isFinite (target.isFinite_iff.mp hr) nofun nofun
  | follow target =>
      exact Instruction.executable_of_isFinite (target.isFinite_iff.mp hr) nofun nofun
  | output number on => exact Instruction.executable_of_isFinite nofun nofun nofun
  | @assign index name value text hliteral =>
      have hfinite : ∀ x ∈ value.number?.toList, x.isFinite = true := fun x hx =>
        ProcessValue.isFinite_of_literal? hliteral x (Option.mem_toList.mp hx)
      exact Instruction.executable_of_isFinite hfinite nofun nofun
  | @pause index name value seconds hsettle =>
      have hseconds := hpause seconds hsettle
      rw [Config.isPause, Bool.and_eq_true, decide_eq_true_eq] at hseconds
      refine Instruction.executable_of_isFinite ?_ nofun ?_
      · exact List.forall_mem_singleton.mpr hseconds.1
      · rintro _ ⟨⟩
        exact hseconds.2
  | @pathSpeed index value speed hspeed =>
      obtain ⟨-, hpositive⟩ := number?_of_speed hspeed
      refine Instruction.executable_of_isFinite ?_ ?_ nofun
      · exact List.forall_mem_singleton.mpr (Config.isFinite_of_isSpeed hpositive)
      · rintro _ ⟨⟩
        exact Config.zero_lt_of_isSpeed hpositive

end Request

namespace Compiler

variable (c : Compiler) (path : Toolpath) {p : Program}

theorem isFinite_frame_of_ok (h : (c.compile path).result = .ok p) {w : Waypoint}
    (hw : w ∈ path.waypoints) : (c.frame w).isFinite = true := by
  obtain ⟨index, hindex⟩ := List.getElem?_of_mem hw
  have hcheck : (c.frameFault? (w, index)).map MotionError.input = none := by
    apply (c.exists_ok_iff path).mp ⟨p, h⟩
    rw [checks, frameChecks, List.mem_append, List.mem_append, List.mem_map]
    exact .inl (.inr ⟨_, List.mk_mem_zipIdx_iff_getElem?.mpr hindex, rfl⟩)
  have hframe := c.finiteFrame_eq (w, index)
  rw [Option.map_eq_none_iff.mp hcheck, Option.elim_none, finiteFrame] at hframe
  simp only at hframe
  split at hframe
  next hfinite => exact hfinite
  next => cases hframe

/-- Once all checks are passed, every move goes to a finite target. -/
theorem isFinite_of_mem_requests (h : (c.compile path).result = .ok p) {r : Request}
    (hr : r ∈ c.requests path (path.waypoints.map c.frame)) : r.IsFinite := by
  have hhome := c.isFinite_home_of_ok path h
  simp only [requests, List.mem_append, List.mem_singleton, List.mem_flatMap, Prod.exists] at hr
  rcases hr with (((rfl | hr) | ⟨frame, index, hframe, hr⟩) | hr) | rfl
  · exact hhome
  · exact Request.isFinite_of_still (c.still_of_mem_processOutput hr)
  · have hfinite : frame.isFinite = true := by
      obtain ⟨w, hw, rfl⟩ := List.mem_map.mp (List.fst_mem_of_mem_zipIdx hframe)
      exact c.isFinite_frame_of_ok path h hw
    cases index with
    | zero =>
        obtain rfl := List.mem_singleton.mp hr
        exact hfinite
    | succ index =>
        rw [approach, List.mem_append, List.mem_singleton] at hr
        rcases hr with hr | rfl
        · exact Request.isFinite_of_still (c.still_of_mem_settings path hr)
        · exact hfinite
  · exact Request.isFinite_of_still (c.still_of_mem_processOutput hr)
  · exact hhome

/-- All that a compiled program tells the robot can be carried out, and the robot travels
before it follows the path. -/
theorem compile_executable (h : (c.compile path).result = .ok p) :
    (∀ i ∈ p.instructions, i.Executable) ∧
      ∀ before target after, p.instructions = before ++ .continuous target :: after →
        ∃ start, .pointToPoint start ∈ before := by
  constructor
  · intro i hi
    obtain ⟨-, instructions, hrun, rfl⟩ := c.compile_eq_ok path h
    obtain ⟨r, hr, hwrites⟩ := Run.exists_writes hrun hi
    exact hwrites.executable (c.isFinite_of_mem_requests path h hr)
      (c.isPause_settleTime_of_ok path h)
  · intro before target after hbefore
    obtain ⟨first, rest, -, rfl⟩ := c.exists_eq_along path h
    -- A program starts with a travel, so nothing else can be the first instruction.
    cases before with
    | nil => cases hbefore
    | cons i before =>
        obtain ⟨rfl, -⟩ := List.cons.inj hbefore
        exact ⟨c.config.home, List.mem_cons_self⟩

theorem compile_executable_setting :
    ∃ p, (standard.compile (pathSetting "A")).result = .ok p ∧
      ∀ i ∈ p.instructions, i.Executable := by
  obtain ⟨p, hresult⟩ := exists_ok_of_isOk standard (pathSetting "A") (by decide +kernel)
  exact ⟨p, hresult, (compile_executable standard _ hresult).1⟩

end Compiler

end RobotPath
