import RobotPath.Proofs.Compiler.Relevance
import RobotPath.Proofs.Interchange.Stored

/-!
# Compiling a job that was stored

A job that is read back lacks a pause and values that were not finite, so the checks of
these are all that it can gain or lose by that. It compiles to the same program, or fails
with the same fault, unless that fault was about such a number; then the fault is gone, and
what comes next in the order of the checks decides.
-/

namespace RobotPath

/-- Whether a fault is about a number that is not stored: a pause or a decimal of the path
that is not finite. -/
def MotionError.isUnstored : MotionError → Bool
  | .config (.invalidSettleTime seconds) => !seconds.isFinite
  | .unsupportedValue (.notRepresentable value) => !value.isFinite
  | .unsupportedValue (.pathSpeed _ (.decimal value)) => !value.isFinite
  | _ => false

/-- What a check reports of the job that is read back. -/
def whenStored (checked : Option MotionError) : Option MotionError :=
  checked.filter fun e => !e.isUnstored

theorem whenStored_check {failed : Bool} {e : MotionError} (h : e.isUnstored = false) :
    whenStored (check failed e) = check failed e := by
  cases failed with
  | false => rfl
  | true => simp [whenStored, check, h]

/-- The check of a number that may be left out is made of it if it is finite. -/
theorem whenStored_check_of_isUnstored {x : Float} {failed : Bool} {e : MotionError}
    (he : e.isUnstored = !x.isFinite) (hfailed : x.isFinite = false → failed = true) :
    whenStored (check failed e) = if x.isFinite = true then check failed e else none := by
  split
  next hfinite => exact whenStored_check (by rw [he, hfinite]; rfl)
  next hinfinite =>
      have hfalse : x.isFinite = false := Bool.not_eq_true _ ▸ hinfinite
      rw [hfailed hfalse]
      simp [whenStored, check, he, hfalse]

/-- The first fault that is left. -/
theorem firstFault?_map_whenStored {checks : List (Option MotionError)} {e : MotionError}
    (h : firstFault? checks = some e) (hstored : e.isUnstored = false) :
    firstFault? (checks.map whenStored) = some e := by
  induction checks with
  | nil => cases h
  | cons checked rest ih =>
      cases checked with
      | none => exact ih h
      | some fault =>
          cases h
          simp [firstFault?, whenStored, hstored]

theorem of_firstFault?_map_whenStored {checks : List (Option MotionError)} {e : MotionError}
    (h : firstFault? (checks.map whenStored) = some e) :
    e.isUnstored = false ∧ some e ∈ checks := by
  obtain ⟨checked, hmem, hchecked⟩ := List.mem_map.mp (mem_of_firstFault? h)
  obtain ⟨rfl, hstored⟩ := Option.filter_eq_some_iff.mp hchecked
  exact ⟨by simpa using hstored, hmem⟩

namespace ProcessValue

theorem bind_check_stored? (value : ProcessValue) :
    value.stored?.bind check = whenStored value.check := by
  cases value with
  | switch | integer => rfl
  | decimal x =>
      have hcheck : whenStored (decimal x).check =
          if x.isFinite = true then (decimal x).check else none :=
        whenStored_check_of_isUnstored rfl fun hx => by rw [hx]; rfl
      rw [hcheck, stored?]
      split <;> rfl

theorem bind_speedCheck_stored? (index : Nat) (value : ProcessValue) :
    value.stored?.bind (speedCheck index) = whenStored (value.speedCheck index) := by
  cases value with
  | switch on => rfl
  | integer n => exact (whenStored_check (e := .unsupportedValue _) rfl).symm
  | decimal x =>
      have hcheck : whenStored ((decimal x).speedCheck index) =
          if x.isFinite = true then (decimal x).speedCheck index else none :=
        whenStored_check_of_isUnstored rfl fun hx => by simp [number?, hx]
      rw [hcheck, stored?]
      split <;> rfl

/-- A value that may be written is stored as it is. -/
theorem stored?_of_check {value : ProcessValue} (h : value.check = none) :
    value.stored? = some value := by
  cases value with
  | switch | integer => rfl
  | decimal x =>
      have hfinite : x.isFinite = true := by simpa [check, check_eq_none_iff] using h
      exact if_pos hfinite

theorem stored?_of_speedCheck {value : ProcessValue} (index : Nat)
    (h : value.speedCheck index = none) : value.stored? = some value := by
  cases value with
  | switch | integer => rfl
  | decimal x =>
      have hfinite : x.isFinite = true := by
        simp [speedCheck, check_eq_none_iff, number?] at h
        exact h.1
      exact if_pos hfinite

end ProcessValue

/-- The checks of the settings that are read back. -/
theorem Config.checks_stored (c : Config) : c.stored.checks = c.checks.map whenStored := by
  have hhome : (MotionError.config .homeNotFinite).isUnstored = false := rfl
  have hspeed : (MotionError.config (.pathSpeedNotPositive c.pathSpeed)).isUnstored = false := rfl
  have horientation : (MotionError.config .orientationNotFinite).isUnstored = false := rfl
  have hpause (pause : Option Float) : whenStored (pause.bind fun seconds =>
        check (!seconds.isFinite || seconds < 0) (.config (.invalidSettleTime seconds))) =
      (pause.filter Float.isFinite).bind fun seconds =>
        check (!seconds.isFinite || seconds < 0) (.config (.invalidSettleTime seconds)) := by
    cases pause with
    | none => rfl
    | some seconds =>
        rw [Option.bind_some, Option.filter_some,
          whenStored_check_of_isUnstored (x := seconds) rfl fun hx => by rw [hx]; rfl]
        split <;> rfl
  rw [checks, checks, List.map_cons, List.map_cons, List.map_cons, List.map_singleton,
    whenStored_check hhome, whenStored_check hspeed, whenStored_check horientation, hpause]
  rfl

namespace Compiler

variable (c : Compiler) (path : Toolpath)

/-- The compiler whose configuration is read back. -/
def stored : Compiler := { c with config := c.config.stored }

theorem frameChecks_stored :
    c.stored.frameChecks path.stored = (c.frameChecks path).map whenStored := by
  have hframe (w : Waypoint × Nat) :
      whenStored ((c.frameFault? w).map .input) = (c.frameFault? w).map .input := by
    cases c.frameFault? w <;> rfl
  have hempty : (MotionError.input .noWaypoints).isUnstored = false := rfl
  rw [frameChecks, frameChecks, List.map_append, List.map_append, List.map_singleton,
    whenStored_check hempty, List.map_map, ← Config.checks_stored]
  congr 1
  apply List.map_congr_left
  intro w _
  exact (hframe w).symm

theorem valueChecks_stored (index : Nat) :
    c.stored.valueChecks path.stored index = (c.valueChecks path index).map whenStored := by
  have hordered : c.stored.config.ordered path.stored.profiles =
      (c.config.ordered path.profiles).map fun entry => (entry.1, entry.2.stored) := by
    exact (c.config.ordered_filterMap _ _).trans (congrFun List.filterMap_eq_map' _)
  have hget {check : ProcessValue → Option MotionError}
      (hcheck : ∀ value, value.stored?.bind check = whenStored (check value)) (profile : Profile) :
      (profile.stored.get? index).bind check = whenStored ((profile.get? index).bind check) := by
    rw [Profile.get?_stored, Option.bind_assoc]
    cases profile.get? index with
    | none => rfl
    | some value => exact hcheck value
  have hspeed :
      (path.stored.speed.bind (·.get? index)).bind (ProcessValue.speedCheck index) =
        whenStored ((path.speed.bind (·.get? index)).bind (ProcessValue.speedCheck index)) := by
    rw [Toolpath.stored]
    cases path.speed with
    | none => rfl
    | some profile => exact hget (ProcessValue.bind_speedCheck_stored? index) profile
  rw [valueChecks, valueChecks, List.map_append, List.map_map, hordered, List.map_map,
    List.map_singleton, hspeed]
  congr 1
  apply List.map_congr_left
  intro entry _
  exact hget ProcessValue.bind_check_stored? entry.2

/-- The checks of a job that is read back are those of the job, without the faults about
numbers that are not stored. -/
theorem checks_stored : c.stored.checks path.stored = (c.checks path).map whenStored := by
  rw [checks, checks, List.map_append, List.map_flatMap, frameChecks_stored]
  congr 1
  apply List.flatMap_congr
  intro index _
  exact c.valueChecks_stored path index

/-- A path that fails no check at an index says the same there when it is read back. -/
theorem agreeAt_stored {index : Nat} (h : ∀ fault ∈ c.valueChecks path index, fault = none) :
    path.stored.AgreeAt path index := by
  constructor
  · intro name
    rw [Toolpath.stored, NameMap.find?_filterMap]
    cases hprofile : path.profiles.find? name with
    | none => rfl
    | some profile =>
        refine Profile.get?_stored_of_forall fun value hvalue => ?_
        apply ProcessValue.stored?_of_check
        apply h
        rw [mem_valueChecks_iff]
        exact .inl ⟨name, profile, hprofile, by rw [hvalue, Option.bind_some]⟩
  · rw [Toolpath.stored]
    cases hprofile : path.speed with
    | none => rfl
    | some profile =>
        refine Profile.get?_stored_of_forall fun value hvalue => ?_
        apply ProcessValue.stored?_of_speedCheck index
        apply h
        rw [mem_valueChecks_iff, hprofile, Option.bind_some, hvalue]
        exact .inr rfl

/-- Where a program is made of a job, nothing that matters is missing from what is stored. -/
theorem compile_stored_of_ok {p : Program} (h : (c.compile path).result = .ok p) :
    c.stored.compile path.stored = c.compile path := by
  have hchecks := (c.exists_ok_iff path).mp ⟨p, h⟩
  have hpause : c.config.settleTime.filter Float.isFinite = c.config.settleTime := by
    have hvalid := c.isPause_settleTime_of_ok path h
    cases hsettle : c.config.settleTime with
    | none => rfl
    | some seconds =>
        have hseconds := hvalid seconds hsettle
        rw [Config.isPause, Bool.and_eq_true] at hseconds
        rw [Option.filter_some, if_pos hseconds.1]
  have hconfig : c.stored = c := by rw [stored, Config.stored, hpause]
  rw [hconfig]
  refine c.compile_eq_of_requests_eq rfl (c.requests_eq_of_agreeAt fun index hpos hlt => ?_)
  rw [List.length_map] at hlt
  refine c.agreeAt_stored path fun fault hfault => hchecks fault ?_
  rw [checks, List.mem_append, List.mem_flatMap]
  have hindex : index ∈ List.range' 1 (path.waypoints.length - 1) := by
    change index < path.waypoints.length at hlt
    rw [List.mem_range'_1]
    omega
  exact .inr ⟨index, hindex, hfault⟩

/-- If a job is read back from what was stored of it, it is the job without a pause that is
not finite and with gaps for the decimals that are not. It compiles as before, unless the
fault was about such a number: a program stays the same program, any other fault stays what
it is, and a fault that is reported afterwards was there before. -/
theorem compile_readBack {config : Config} {stored : Toolpath}
    (hconfig : Config.ofJson? c.config.toJson = some config)
    (hpath : Toolpath.ofJson? path.toJson = some stored) :
    let job := { c with config }
    config = c.config.stored ∧ stored = path.stored ∧
      (∀ p, (c.compile path).result = .ok p → (job.compile stored).result = .ok p) ∧
      (∀ e, (c.compile path).result = .error e → e.isUnstored = false →
        (job.compile stored).result = .error e) ∧
      ∀ e, (job.compile stored).result = .error e →
        e.isUnstored = false ∧ some e ∈ c.checks path := by
  obtain ⟨-, rfl⟩ := Config.ofJson?_toJson_eq_some_iff.mp hconfig
  obtain ⟨-, rfl⟩ := Toolpath.ofJson?_toJson_eq_some_iff.mp hpath
  intro job
  refine ⟨rfl, rfl, fun p h => ?_, fun e h hstored => ?_, fun e h => ?_⟩
  · have hcompile : job.compile path.stored = c.compile path := c.compile_stored_of_ok path h
    rw [hcompile, h]
  · have hfault := (c.result_eq_error_iff path).mp h
    rw [result_eq_error_iff]
    change firstFault? (c.stored.checks path.stored) = some e
    rw [checks_stored]
    exact firstFault?_map_whenStored hfault hstored
  · have hfault : firstFault? (c.stored.checks path.stored) = some e :=
      (job.result_eq_error_iff path.stored).mp h
    rw [checks_stored] at hfault
    exact of_firstFault?_map_whenStored hfault

theorem isFinite_waypoints_pathSetting (name : String) :
    ∀ w ∈ (pathSetting name).waypoints, w.IsFinite := by
  have hzero : Vec3.zero.isFinite = true := by decide +kernel
  have hone : (⟨1, 0, 0⟩ : Vec3).isFinite = true := by decide +kernel
  simp [pathSetting, Toolpath.withVariable, Toolpath.ofWaypoints, Waypoint.IsFinite, hzero, hone]

/-- The standard compiler with another pause. -/
def pausing (pause : Option Float) : Compiler :=
  { standard with config := { Config.standard with settleTime := pause } }

theorem isFinite_stored_pausing (pause : Option Float) : (pausing pause).config.stored.IsFinite :=
  { Config.isFinite_standard with settleTime := Config.isFinite_settleTime_stored _ }

theorem compile_readBack_pathWithStrays :
    let c := pausing (some 0.5)
    Config.ofJson? c.config.toJson = some c.config.stored ∧
      Toolpath.ofJson? pathWithStrays.toJson = some pathWithStrays.stored ∧
      ∃ p, (c.compile pathWithStrays).result = .ok p ∧
        (c.stored.compile pathWithStrays.stored).result = .ok p := by
  intro c
  have hconfig : Config.ofJson? c.config.toJson = some c.config.stored :=
    Config.ofJson?_toJson_eq_some_iff.mpr ⟨isFinite_stored_pausing _, rfl⟩
  have hpath : Toolpath.ofJson? pathWithStrays.toJson = some pathWithStrays.stored :=
    Toolpath.ofJson?_toJson_eq_some_iff.mpr ⟨isFinite_waypoints_pathSetting "A", rfl⟩
  obtain ⟨p, hp⟩ := exists_ok_of_isOk c pathWithStrays (by decide +kernel)
  obtain ⟨-, -, hprogram, -, -⟩ := compile_readBack c pathWithStrays hconfig hpath
  exact ⟨hconfig, hpath, p, hp, hprogram p hp⟩

/-- The same program text, or faults of one kind. -/
inductive SameOutcome : Except MotionError Program → Except MotionError Program → Prop
  | program {p q : Program} (h : p.text = q.text) : SameOutcome (.ok p) (.ok q)
  | fault {e e' : MotionError} (h : e.kind = e'.kind) : SameOutcome (.error e) (.error e')

/-- The standard compiler with a pause that is no number. -/
def unpausable : Compiler := pausing (some (0 / 0))

/-- A pause that is no number is refused, and is no pause when it is read back. -/
theorem not_sameOutcome_readBack :
    ¬ ∀ (c : Compiler) (path : Toolpath) (config : Config) (stored : Toolpath),
      Config.ofJson? c.config.toJson = some config → Toolpath.ofJson? path.toJson = some stored →
        SameOutcome (c.compile path).result ({ c with config }.compile stored).result := by
  intro h
  have hconfig : Config.ofJson? unpausable.config.toJson = some unpausable.config.stored :=
    Config.ofJson?_toJson_eq_some_iff.mpr ⟨isFinite_stored_pausing _, rfl⟩
  have hpath : Toolpath.ofJson? (pathSetting "A").toJson = some (pathSetting "A").stored :=
    Toolpath.ofJson?_toJson_eq_some_iff.mpr ⟨isFinite_waypoints_pathSetting "A", rfl⟩
  have hfails : (unpausable.compile (pathSetting "A")).result =
      .error (.config (.invalidSettleTime (0 / 0))) := rfl
  obtain ⟨p, hok⟩ := exists_ok_of_isOk unpausable.stored (pathSetting "A").stored
    (by decide +kernel)
  have hsame : SameOutcome (unpausable.compile (pathSetting "A")).result
      (unpausable.stored.compile (pathSetting "A").stored).result :=
    h unpausable (pathSetting "A") _ _ hconfig hpath
  rw [hfails, hok] at hsame
  cases hsame

end Compiler

end RobotPath
