import RobotPath.Proofs.Compiler.Checks
import RobotPath.Proofs.Compiler.Order

/-!
# The values that matter

What a waypoint asks for depends on nothing but the values at its own index, and the
first waypoint asks for none. Two paths with the same waypoints and the same values
in between are one path to a compiler, however their profiles are spelled.
-/

namespace RobotPath

namespace Toolpath

/-- Two paths that say the same at an index. A path says nothing of a variable that it
lacks, and nothing of the speed when it has no profile for it. -/
structure AgreeAt (a b : Toolpath) (index : Nat) : Prop where
  values : ∀ name, (a.profiles.find? name).bind (·.get? index) =
    (b.profiles.find? name).bind (·.get? index)
  speed : a.speed.bind (·.get? index) = b.speed.bind (·.get? index)

end Toolpath

namespace Compiler

variable (c : Compiler) {a b : Toolpath}

/-- The settings at an index, told from the values at that index alone. -/
theorem settings_eq (path : Toolpath) (index : Nat) :
    c.settings path index =
      (c.config.ordered (path.profiles.filterMap (·.get? index))).map
          (fun (name, value) => Request.assign index name value) ++
        ((path.speed.bind (·.get? index)).map (Request.pathSpeed index)).toList := by
  rw [settings, Config.ordered_filterMap, List.map_filterMap]
  simp only [Option.map_map]
  rfl

theorem settings_eq_of_agreeAt {index : Nat} (h : a.AgreeAt b index) :
    c.settings a index = c.settings b index := by
  have hvalues : a.profiles.filterMap (·.get? index) = b.profiles.filterMap (·.get? index) := by
    ext1 name
    rw [NameMap.find?_filterMap, NameMap.find?_filterMap, h.values]
  rw [settings_eq, settings_eq, hvalues, h.speed]

theorem approach_eq_of_agreeAt (frame : Frame) {index : Nat}
    (h : 0 < index → a.AgreeAt b index) : c.approach a frame index = c.approach b frame index := by
  cases index with
  | zero => rfl
  | succ index => rw [approach, approach, c.settings_eq_of_agreeAt (h (Nat.succ_pos index))]

/-- The way along some frames, when the paths agree at the indices of all of them. -/
theorem flatMap_approach_eq {frames : List Frame}
    (h : ∀ index, 0 < index → index < frames.length → a.AgreeAt b index) :
    (frames.zipIdx.flatMap fun (frame, index) => c.approach a frame index) =
      frames.zipIdx.flatMap fun (frame, index) => c.approach b frame index := by
  apply List.flatMap_congr
  rintro ⟨frame, index⟩ hmem
  have hframe := List.mk_mem_zipIdx_iff_getElem?.mp hmem
  have hlt : index < frames.length := (List.getElem?_eq_some_iff.mp hframe).1
  exact c.approach_eq_of_agreeAt frame fun hpos => h index hpos hlt

theorem requests_eq_of_agreeAt {frames : List Frame}
    (h : ∀ index, 0 < index → index < frames.length → a.AgreeAt b index) :
    c.requests a frames = c.requests b frames := by
  rw [requests, requests, c.flatMap_approach_eq h]

/-- What is checked at an index, whatever the order of assignment is. -/
theorem mem_valueChecks_iff {path : Toolpath} {index : Nat} {fault : Option MotionError} :
    fault ∈ c.valueChecks path index ↔
      (∃ name profile, path.profiles.find? name = some profile ∧
        (profile.get? index).bind ProcessValue.check = fault) ∨
      fault = (path.speed.bind (·.get? index)).bind (ProcessValue.speedCheck index) := by
  rw [valueChecks, List.mem_append, List.mem_map, List.mem_singleton, Prod.exists]
  simp only [Config.mem_ordered_iff]

/-- What is checked before the first request does not look at any value. -/
theorem frames_eq_of_waypoints_eq (h : a.waypoints = b.waypoints) : c.frames a = c.frames b := by
  rw [frames, frames, h]

/-- A compilation is the same when it places the same waypoints and makes the same requests. -/
theorem compile_eq_of_requests_eq (hwaypoints : a.waypoints = b.waypoints)
    (hrequests : c.requests a (a.waypoints.map c.frame) = c.requests b (a.waypoints.map c.frame)) :
    c.compile a = c.compile b := by
  have hframes := c.frames_eq_of_waypoints_eq hwaypoints
  cases hok : c.frames a with
  | error e => rw [compile, compile, ← hframes, hok]
  | ok frames =>
      obtain ⟨-, rfl⟩ := c.frames_eq_ok a hok
      rw [compile, compile, ← hframes, hok]
      simp only [run, hrequests]

/-- Paths with the same waypoints that agree at all indices but the first compile alike:
to the same program or the same failure, with the same log. -/
theorem compile_eq_of_agreeAt (hwaypoints : a.waypoints = b.waypoints)
    (h : ∀ index, 0 < index → index < a.waypoints.length → a.AgreeAt b index) :
    c.compile a = c.compile b := by
  apply c.compile_eq_of_requests_eq hwaypoints
  apply c.requests_eq_of_agreeAt
  intro index hpos hlt
  rw [List.length_map] at hlt
  exact h index hpos hlt

/-- The path of `pathSetting` with values that no waypoint looks at: values of the first
waypoint, values past the end, and a variable that has no others. -/
def pathWithStrays : Toolpath :=
  { ((pathSetting "A").withVariable "A"
      ⟨[some (.switch true), some (.integer 1), some (.decimal (1 / 0))]⟩).withVariable "B"
      ⟨[some (.decimal (0 / 0)), none]⟩ with
    speed := some ⟨[some (.switch false), none, some (.integer (-1))]⟩ }

theorem compile_pathWithStrays :
    (∀ index, 0 < index → index < 2 → pathWithStrays.AgreeAt (pathSetting "A") index) ∧
      standard.compile pathWithStrays = standard.compile (pathSetting "A") := by
  have hagree : ∀ index, 0 < index → index < 2 →
      pathWithStrays.AgreeAt (pathSetting "A") index := by
    intro index hpos hlt
    obtain rfl : index = 1 := by omega
    refine ⟨fun name => ?_, rfl⟩
    simp only [pathWithStrays, pathSetting, Toolpath.withVariable, Toolpath.ofWaypoints,
      NameMap.find?_insert]
    by_cases hB : name = "B"
    · subst hB
      rfl
    · by_cases hA : name = "A"
      · subst hA
        rfl
      · simp [hA, hB]
  exact ⟨hagree, compile_eq_of_agreeAt standard rfl hagree⟩

end Compiler

end RobotPath
