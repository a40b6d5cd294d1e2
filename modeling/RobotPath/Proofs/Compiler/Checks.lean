import RobotPath.Proofs.Compiler.Run
import RobotPath.Proofs.Decimal.Double

/-!
# What a compilation checks

A compilation fails exactly when one of its checks does, and reports the first of
them: the settings, that there is a path, every frame, and then the values of each
later waypoint in the order they are written in. Values of the first waypoint, and
values past the end of the path, are never looked at.
-/

namespace RobotPath

/-- A check and the fault that it reports if it fails. -/
def check {ε : Type} (failed : Bool) (fault : ε) : Option ε :=
  if failed then some fault else none

/-- What checks report that are made one after the other. -/
def firstFault? (checks : List (Option MotionError)) : Option MotionError := checks.findSome? id

theorem eq_of_check {ε : Type} {failed : Bool} {fault e : ε} (h : check failed fault = some e) :
    fault = e := by
  unfold check at h
  split at h
  next => exact Option.some_inj.mp h
  next => cases h

theorem check_eq_none_iff {ε : Type} {failed : Bool} {fault : ε} :
    check failed fault = none ↔ failed = false := by
  cases failed <;> simp [check]

theorem firstFault?_append (checks more : List (Option MotionError)) :
    firstFault? (checks ++ more) = (firstFault? checks).or (firstFault? more) :=
  List.findSome?_append

theorem firstFault?_map {α : Type} (f : α → Option MotionError) (items : List α) :
    firstFault? (items.map f) = items.findSome? f :=
  List.findSome?_map

theorem mem_of_firstFault? {checks : List (Option MotionError)} {e : MotionError}
    (h : firstFault? checks = some e) : some e ∈ checks := by
  obtain ⟨_, hmem, rfl⟩ := List.exists_of_findSome?_eq_some h
  exact hmem

/-- The kinds of failure, whatever the cause is. -/
inductive MotionError.Kind where
  | input
  | unsupportedValue
  | config
  | source
  | storage
deriving DecidableEq, Repr

def MotionError.kind : MotionError → MotionError.Kind
  | input _ => .input
  | unsupportedValue _ => .unsupportedValue
  | config _ => .config
  | source _ => .source
  | storage _ => .storage

namespace Config

/-- A bound on a finite number fails exactly when the opposite one holds. -/
theorem finite_and_eq {x : Float} {bound opposite : Prop} [Decidable bound] [Decidable opposite]
    (h : x.isFinite = true → (¬ bound ↔ opposite)) :
    (x.isFinite && decide bound) = !(!x.isFinite || decide opposite) := by
  cases hfinite : x.isFinite with
  | false => rfl
  | true => simp [← h hfinite]

theorem zero_lt_of_isSpeed {speed : Float} (h : isSpeed speed = true) : 0 < speed := by
  rw [isSpeed, Bool.and_eq_true, decide_eq_true_eq] at h
  exact h.2

theorem isFinite_of_isSpeed {speed : Float} (h : isSpeed speed = true) :
    speed.isFinite = true := by
  rw [isSpeed, Bool.and_eq_true] at h
  exact h.1

theorem isSpeed_eq (speed : Float) : isSpeed speed = !(!speed.isFinite || speed ≤ 0) :=
  finite_and_eq Reading.not_zero_lt_iff

theorem isPause_eq (seconds : Float) : isPause seconds = !(!seconds.isFinite || seconds < 0) :=
  finite_and_eq Reading.not_zero_le_iff

/-- What is checked of the settings alone. -/
def checks (c : Config) : List (Option MotionError) :=
  [check (!c.home.isFinite) (.config .homeNotFinite),
   check (!c.pathSpeed.isFinite || c.pathSpeed ≤ 0) (.config (.pathSpeedNotPositive c.pathSpeed)),
   check (!c.defaultOrientation.isFinite) (.config .orientationNotFinite),
   c.settleTime.bind fun seconds =>
     check (!seconds.isFinite || seconds < 0) (.config (.invalidSettleTime seconds))]

theorem validate_eq (c : Config) :
    c.validate.mapError .config = (firstFault? c.checks).elim (.ok ()) .error := by
  unfold validate checks
  rw [isSpeed_eq, Bool.not_not]
  -- Four checks, each of which passes or not, and the last of which may be missing.
  cases !c.home.isFinite <;> cases !c.pathSpeed.isFinite || decide (c.pathSpeed ≤ 0) <;>
    cases !c.defaultOrientation.isFinite <;> try rfl
  cases c.settleTime with
  | none => rfl
  | some seconds =>
      simp only [isPause_eq, Bool.not_not, Option.bind_some]
      cases !seconds.isFinite || decide (seconds < 0) <;> rfl

end Config

namespace ProcessValue

/-- A value that is written to a variable must be one that a program can hold. -/
def check : ProcessValue → Option MotionError
  | .decimal value =>
      RobotPath.check (!value.isFinite) (.unsupportedValue (.notRepresentable value))
  | _ => none

/-- A path speed must be a positive number, and a switch is none. -/
def speedCheck (index : Nat) (value : ProcessValue) : Option MotionError :=
  RobotPath.check (value.number?.all fun speed => !speed.isFinite || speed ≤ 0)
    (.unsupportedValue (.pathSpeed index value))

theorem fault?_assign (index : Nat) (name : String) (value : ProcessValue) :
    (Request.assign index name value).fault? = value.check := by
  unfold Request.fault? literal? check
  cases value with
  | switch | integer => rfl
  | decimal value => cases hfinite : value.isFinite <;> simp [RobotPath.check, hfinite]

theorem fault?_pathSpeed (index : Nat) (value : ProcessValue) :
    (Request.pathSpeed index value).fault? = value.speedCheck index := by
  simp only [Request.fault?, Request.speed, speedCheck]
  cases value.number? with
  | none => rfl
  | some speed =>
      rw [Option.filter_some, Option.all_some, Config.isSpeed_eq]
      cases !speed.isFinite || decide (speed ≤ 0) <;> rfl

end ProcessValue

/-- Mapping stops at the first item with a fault. -/
theorem mapM_eq_elim {α β ε : Type} {f : α → Except ε β} {g : α → β} {fault : α → Option ε}
    (h : ∀ a, f a = (fault a).elim (.ok (g a)) .error) (items : List α) :
    items.mapM f = (items.findSome? fault).elim (.ok (items.map g)) .error := by
  induction items with
  | nil => rfl
  | cons item rest ih =>
      rw [List.mapM_cons, List.findSome?_cons, h, ih]
      cases fault item with
      | some e => rfl
      | none => cases rest.findSome? fault <;> rfl

theorem findSome?_filterMap {α β γ : Type} (f : α → Option β) (g : β → Option γ) (items : List α) :
    (items.filterMap f).findSome? g = items.findSome? fun a => (f a).bind g := by
  induction items with
  | nil => rfl
  | cons item rest ih =>
      rw [List.filterMap_cons, List.findSome?_cons, ← ih]
      cases f item <;> rfl

namespace Compiler

variable (c : Compiler) (path : Toolpath)

/-- The frame of every waypoint must be finite. -/
def frameFault? : Waypoint × Nat → Option InputFault
  | (w, index) =>
      check (!(c.placement.apply w.position).isFinite ||
          !(w.orientation.getD c.config.defaultOrientation).isFinite)
        (.waypointNotFinite index (c.placement.apply w.position))

/-- What is checked before anything is written. -/
def frameChecks : List (Option MotionError) :=
  c.config.checks ++ [check path.waypoints.isEmpty (.input .noWaypoints)] ++
    path.waypoints.zipIdx.map fun w => (c.frameFault? w).map .input

/-- What is checked at the waypoint of an index: its variables in the order they
are written in, and then its path speed. -/
def valueChecks (index : Nat) : List (Option MotionError) :=
  ((c.config.ordered path.profiles).map fun (_, profile) =>
      (profile.get? index).bind ProcessValue.check) ++
    [(path.speed.bind (·.get? index)).bind (ProcessValue.speedCheck index)]

/-- All that is checked of a path, in order. -/
def checks : List (Option MotionError) :=
  c.frameChecks path ++
    (List.range' 1 (path.waypoints.length - 1)).flatMap (c.valueChecks path)

theorem finiteFrame_eq (w : Waypoint × Nat) :
    c.finiteFrame w.2 w.1 = (c.frameFault? w).elim (.ok (c.frame w.1)) .error := by
  have hframe : (c.frame w.1).isFinite = !(!(c.placement.apply w.1.position).isFinite ||
      !(w.1.orientation.getD c.config.defaultOrientation).isFinite) := by
    rw [Bool.not_or, Bool.not_not, Bool.not_not]
    rfl
  rw [finiteFrame, hframe, frameFault?]
  cases !(c.placement.apply w.1.position).isFinite ||
    !(w.1.orientation.getD c.config.defaultOrientation).isFinite <;> rfl

/-- The frames are those of the waypoints, unless one of the checks fails. -/
theorem frames_eq :
    c.frames path =
      (firstFault? (c.frameChecks path)).elim (.ok (path.waypoints.map c.frame)) .error := by
  have hframes : (path.waypoints.zipIdx.map fun w => c.frame w.1) = path.waypoints.map c.frame := by
    conv => rhs; rw [← List.zipIdx_map_fst 0 path.waypoints, List.map_map]
    rfl
  have hfault : firstFault? (path.waypoints.zipIdx.map fun w => (c.frameFault? w).map .input) =
      (path.waypoints.zipIdx.findSome? c.frameFault?).map .input := by
    rw [firstFault?_map, List.map_findSome?]
    rfl
  unfold frames frameChecks
  rw [Config.validate_eq, mapM_eq_elim c.finiteFrame_eq, hframes, firstFault?_append,
    firstFault?_append, hfault]
  -- Settings, emptiness and frames are checked in this order, on both sides.
  cases firstFault? c.config.checks with
  | some e => rfl
  | none =>
      cases path.waypoints.isEmpty with
      | true => rfl
      | false => cases path.waypoints.zipIdx.findSome? c.frameFault? <;> rfl

theorem frames_eq_ok {frames : List Frame} (h : c.frames path = .ok frames) :
    path.waypoints ≠ [] ∧ frames = path.waypoints.map c.frame := by
  rw [frames_eq] at h
  cases hfault : firstFault? (c.frameChecks path) with
  | some e => rw [hfault] at h; cases h
  | none =>
      rw [hfault] at h
      cases h
      refine ⟨fun hempty => ?_, rfl⟩
      rw [frameChecks, firstFault?_append, firstFault?_append, hempty] at hfault
      cases hconfig : firstFault? c.config.checks <;> rw [hconfig] at hfault <;> cases hfault

/-! ## Faults of the values -/

theorem findSome?_settings (index : Nat) :
    (c.settings path index).findSome? Request.fault? = firstFault? (c.valueChecks path index) := by
  have hvariable : ((fun entry : String × Profile =>
      ((entry.2.get? index).map (Request.assign index entry.1)).bind Request.fault?)) =
        fun entry => (entry.2.get? index).bind ProcessValue.check := by
    funext entry
    cases entry.2.get? index with
    | none => rfl
    | some value => exact ProcessValue.fault?_assign index entry.1 value
  have hspeed : ((path.speed.bind (·.get? index)).map (Request.pathSpeed index)).toList.findSome?
      Request.fault? =
        firstFault? [(path.speed.bind (·.get? index)).bind (ProcessValue.speedCheck index)] := by
    rw [firstFault?, List.findSome?_singleton]
    cases path.speed.bind (·.get? index) with
    | none => rfl
    | some value =>
        exact List.findSome?_singleton.trans (ProcessValue.fault?_pathSpeed index value)
  unfold settings valueChecks
  rw [List.findSome?_append, firstFault?_append, firstFault?_map, findSome?_filterMap, hspeed]
  exact congrArg (Option.or · _) (congrArg (List.findSome? · _) hvariable)

theorem findSome?_path (frames : List Frame) {start : Nat} (hstart : 0 < start) :
    ((frames.zipIdx start).flatMap fun (frame, index) => c.approach path frame index).findSome?
        Request.fault? =
      firstFault? ((List.range' start frames.length).flatMap (c.valueChecks path)) := by
  induction frames generalizing start with
  | nil => rfl
  | cons frame rest ih =>
      -- A move has no fault, so only the settings in front of it count.
      have hfollow : [Request.follow frame].findSome? Request.fault? = none := rfl
      simp only [List.zipIdx_cons, List.length_cons, List.range'_succ, List.flatMap_cons]
      rw [List.findSome?_append, ih (Nat.succ_pos start), c.approach_of_pos path frame hstart,
        List.findSome?_append, findSome?_settings, hfollow, Option.or_none, firstFault?_append]

/-- Only the values of later waypoints have faults; moves and outputs have none. -/
theorem findSome?_requests {frames : List Frame} (h : frames.length = path.waypoints.length) :
    (c.requests path frames).findSome? Request.fault? =
      firstFault? ((List.range' 1 (path.waypoints.length - 1)).flatMap (c.valueChecks path)) := by
  have houtput (on : Bool) : (c.processOutput on).findSome? Request.fault? = none := by
    unfold processOutput
    cases c.config.processOutput <;> rfl
  have hhome : [Request.travel c.config.home].findSome? Request.fault? = none := rfl
  have hpath : (frames.zipIdx.flatMap fun (frame, index) =>
      c.approach path frame index).findSome? Request.fault? =
        firstFault? ((List.range' 1 (frames.length - 1)).flatMap (c.valueChecks path)) := by
    cases frames with
    | nil => rfl
    | cons frame rest => exact c.findSome?_path path rest Nat.one_pos
  simp only [requests, List.findSome?_append, houtput, hhome, hpath, h, Option.none_or,
    Option.or_none]

/-- The outcome of a compilation is that of its checks. -/
theorem compile_result_eq :
    (c.compile path).result =
      (firstFault? (c.checks path)).elim
        (.ok (c.program (c.run path (path.waypoints.map c.frame)).emission.instructions))
        .error := by
  have hfailure : (c.run path (path.waypoints.map c.frame)).failure = firstFault?
      ((List.range' 1 (path.waypoints.length - 1)).flatMap (c.valueChecks path)) := by
    rw [run, Run.failure_ofRequests (c.legal_requests path _)]
    exact c.findSome?_requests path (List.length_map _)
  rw [compile_result, frames_eq, checks, firstFault?_append]
  cases firstFault? (c.frameChecks path) with
  | some e => rfl
  | none =>
      rw [Option.none_or, ← hfailure]
      simp only [Option.elim_none, Except.bind, Run.result]
      cases (c.run path (path.waypoints.map c.frame)).failure <;> rfl

theorem result_eq_error_iff {e : MotionError} :
    (c.compile path).result = .error e ↔ firstFault? (c.checks path) = some e := by
  rw [compile_result_eq]
  cases firstFault? (c.checks path) <;> simp

theorem exists_ok_iff_firstFault? :
    (∃ p, (c.compile path).result = .ok p) ↔ firstFault? (c.checks path) = none := by
  rw [compile_result_eq]
  cases firstFault? (c.checks path) <;> simp

theorem exists_ok_iff :
    (∃ p, (c.compile path).result = .ok p) ↔ ∀ fault ∈ c.checks path, fault = none := by
  rw [exists_ok_iff_firstFault?]
  exact List.findSome?_eq_none_iff

/-- A program is only made with settings that pass their checks. -/
theorem config_checks_eq_none {p : Program} (h : (c.compile path).result = .ok p) :
    ∀ fault ∈ c.config.checks, fault = none := by
  intro fault hfault
  apply (c.exists_ok_iff path).mp ⟨p, h⟩
  simp only [checks, frameChecks, List.mem_append]
  exact .inl (.inl (.inl hfault))

theorem isFinite_home_of_ok {p : Program} (h : (c.compile path).result = .ok p) :
    c.config.home.isFinite = true := by
  have hcheck := c.config_checks_eq_none path h (check (!c.config.home.isFinite) _)
    List.mem_cons_self
  rwa [check_eq_none_iff, Bool.not_eq_false'] at hcheck

theorem isSpeed_pathSpeed_of_ok {p : Program} (h : (c.compile path).result = .ok p) :
    Config.isSpeed c.config.pathSpeed = true := by
  have hcheck := c.config_checks_eq_none path h
    (check (!c.config.pathSpeed.isFinite || c.config.pathSpeed ≤ 0) _)
    (List.mem_cons_of_mem _ List.mem_cons_self)
  rw [Config.isSpeed_eq, check_eq_none_iff.mp hcheck, Bool.not_false]

theorem isPause_settleTime_of_ok {p : Program} (h : (c.compile path).result = .ok p) :
    ∀ seconds ∈ c.config.settleTime, Config.isPause seconds = true := by
  intro seconds hseconds
  have hcheck := c.config_checks_eq_none path h (c.config.settleTime.bind fun seconds =>
    check (!seconds.isFinite || seconds < 0) (.config (.invalidSettleTime seconds)))
    (List.mem_of_getElem? (i := 3) rfl)
  rw [hseconds, Option.bind_some, check_eq_none_iff] at hcheck
  rw [Config.isPause_eq, hcheck, Bool.not_false]

/-- A program that a compilation gives has the instructions of a whole run. -/
theorem compile_eq_ok {p : Program} (h : (c.compile path).result = .ok p) :
    path.waypoints ≠ [] ∧ ∃ instructions,
      (c.run path (path.waypoints.map c.frame)).result = .ok instructions ∧
        c.program instructions = p := by
  rw [compile_result] at h
  cases hframes : c.frames path with
  | error e => rw [hframes] at h; cases h
  | ok frames =>
      obtain ⟨hne, rfl⟩ := c.frames_eq_ok path hframes
      rw [hframes, Except.bind] at h
      cases hrun : (c.run path (path.waypoints.map c.frame)).result with
      | error e => rw [hrun] at h; cases h
      | ok instructions =>
          rw [hrun] at h
          cases h
          exact ⟨hne, instructions, rfl, rfl⟩

/-- A path of two waypoints that sets one variable, at the second of them. -/
def pathSetting (name : String) : Toolpath :=
  (Toolpath.ofWaypoints [⟨Vec3.zero, none⟩, ⟨⟨1, 0, 0⟩, none⟩]).withVariable name
    ⟨[none, some (.integer 1)]⟩

/-- A compiler with a tool and a base. -/
def equipped : Compiler :=
  { standard with config := { Config.standard with
      tool := some ⟨1, 2.5, ⟨0, 0, 40⟩⟩
      base := some ⟨2, ⟨⟨800, 0, 250⟩, ⟨0, 0, 45⟩⟩⟩ } }

theorem exists_ok_of_isOk (h : (c.compile path).result.isOk = true) :
    ∃ p, (c.compile path).result = .ok p := by
  cases hresult : (c.compile path).result with
  | error e => rw [hresult] at h; cases h
  | ok p => exact ⟨p, rfl⟩

/-! ## Which faults there are -/

theorem eq_config_of_mem_checks {e : MotionError} (h : some e ∈ c.config.checks) :
    ∃ fault, e = .config fault := by
  simp only [Config.checks, List.mem_cons, List.not_mem_nil, or_false] at h
  rcases h with h | h | h | h
  · exact ⟨_, (eq_of_check h.symm).symm⟩
  · exact ⟨_, (eq_of_check h.symm).symm⟩
  · exact ⟨_, (eq_of_check h.symm).symm⟩
  · obtain ⟨seconds, -, h⟩ := Option.bind_eq_some_iff.mp h.symm
    exact ⟨_, (eq_of_check h).symm⟩

theorem eq_unsupportedValue_of_mem_valueChecks {index : Nat} {e : MotionError}
    (h : some e ∈ c.valueChecks path index) : ∃ fault, e = .unsupportedValue fault := by
  rw [valueChecks, List.mem_append, List.mem_map, List.mem_singleton] at h
  rcases h with ⟨⟨name, profile⟩, -, h⟩ | h
  · obtain ⟨value, -, hvalue⟩ := Option.bind_eq_some_iff.mp h
    cases value with
    | switch | integer => cases hvalue
    | decimal value => exact ⟨_, (eq_of_check hvalue).symm⟩
  · obtain ⟨value, -, hvalue⟩ := Option.bind_eq_some_iff.mp h.symm
    exact ⟨_, (eq_of_check hvalue).symm⟩

theorem kind_of_mem_frameChecks {e : MotionError} (h : some e ∈ c.frameChecks path) :
    (∃ fault, e = .config fault) ∨ ∃ fault, e = .input fault := by
  simp only [frameChecks, List.mem_append, List.mem_singleton, List.mem_map] at h
  rcases h with (hconfig | hempty) | ⟨w, -, hframe⟩
  · exact .inl (c.eq_config_of_mem_checks hconfig)
  · exact .inr ⟨_, (eq_of_check hempty.symm).symm⟩
  · obtain ⟨fault, -, rfl⟩ := Option.map_eq_some_iff.mp hframe
    exact .inr ⟨fault, rfl⟩

/-- What stops a compilation before its run is wrong with the settings or the path. -/
theorem kind_of_frames_eq_error {e : MotionError} (h : c.frames path = .error e) :
    (∃ fault, e = .config fault) ∨ ∃ fault, e = .input fault := by
  rw [frames_eq] at h
  cases hfault : firstFault? (c.frameChecks path) with
  | none => rw [hfault] at h; cases h
  | some fault =>
      rw [hfault] at h
      cases h
      exact c.kind_of_mem_frameChecks path (mem_of_firstFault? hfault)

/-- Every check is about the settings, the path or a value of it. -/
theorem kind_of_mem_checks {e : MotionError} (h : some e ∈ c.checks path) :
    (∃ fault, e = .config fault) ∨ (∃ fault, e = .input fault) ∨
      ∃ fault, e = .unsupportedValue fault := by
  rw [checks, List.mem_append, List.mem_flatMap] at h
  rcases h with hframe | ⟨index, -, hvalue⟩
  · rcases c.kind_of_mem_frameChecks path hframe with hconfig | hinput
    · exact .inl hconfig
    · exact .inr (.inl hinput)
  · exact .inr (.inr (c.eq_unsupportedValue_of_mem_valueChecks path hvalue))

/-- What came of every attempt of a compilation to make a move. -/
def attempts : List (Except MotionError Tracker) :=
  match c.frames path with
  | .error _ => []
  | .ok frames =>
      Run.attempts c.config.settleTime (Tracker.starting c.config.pathSpeed)
        (c.requests path frames)

/-- A compilation reports the first check that fails, and gives a program when none
does. It never reports a failure of a source or of a device, and never makes an
illegal move. -/
theorem compile_fails_with_first_fault :
    (∀ e, (c.compile path).result = .error e ↔ firstFault? (c.checks path) = some e) ∧
      ((∃ p, (c.compile path).result = .ok p) ↔ ∀ fault ∈ c.checks path, fault = none) ∧
      (∀ failure, (c.compile path).result ≠ .error (.source failure)) ∧
      (∀ fault, (c.compile path).result ≠ .error (.storage fault)) ∧
      ∀ attempt ∈ c.attempts path, attempt.isOk := by
  have herror (e : MotionError) :
      (c.compile path).result = .error e ↔ firstFault? (c.checks path) = some e := by
    rw [compile_result_eq]
    cases firstFault? (c.checks path) <;> simp
  have hmem {e : MotionError} (h : (c.compile path).result = .error e) :
      some e ∈ c.checks path := by
    obtain ⟨fault, hfault, heq⟩ := List.exists_of_findSome?_eq_some ((herror e).mp h)
    exact heq ▸ hfault
  refine ⟨herror, c.exists_ok_iff path, fun failure h => ?_, fun fault h => ?_, fun attempt h => ?_⟩
  · rcases c.kind_of_mem_checks path (hmem h) with ⟨_, h⟩ | ⟨_, h⟩ | ⟨_, h⟩ <;> cases h
  · rcases c.kind_of_mem_checks path (hmem h) with ⟨_, h⟩ | ⟨_, h⟩ | ⟨_, h⟩ <;> cases h
  · unfold attempts at h
    split at h
    next => cases h
    next frames _ => exact Run.isOk_of_mem_attempts (c.legal_requests path frames) h

end Compiler

end RobotPath
