import RobotPath.Proofs.Compiler.Legs

/-!
# Variables do not interfere

A path that loses one of its variables gives the same program without the assignments of
that variable, each of which goes together with its pause. The two compilations disagree
all along about what was assigned last to the variable that is missing, and about nothing
else.
-/

namespace RobotPath

/-- Instructions without the assignments of a variable. Each of them goes together with
the pause right after it, when assignments have pauses. -/
def withoutAssignments (settleTime : Option Float) (name : String) :
    List Instruction → List Instruction
  | [] => []
  | i :: rest =>
      if (i.assigned? name).isSome then
        match settleTime, rest with
        | some _, .wait _ :: later => withoutAssignments settleTime name later
        | _, rest => withoutAssignments settleTime name rest
      else i :: withoutAssignments settleTime name rest

/-- The path without one of its variables. -/
def Toolpath.withoutVariable (path : Toolpath) (name : String) : Toolpath :=
  { path with profiles := path.profiles.erase name }

/-- The leg without the assignment of a variable. -/
def Leg.without (leg : Leg) (name : String) : Leg :=
  { leg with assignments := leg.assignments.filter fun entry => entry.1 ≠ name }

section withoutAssignments

variable {settleTime : Option Float} {name : String}

theorem withoutAssignments_cons_of_other {i : Instruction} (h : i.assigned? name = none)
    (rest : List Instruction) :
    withoutAssignments settleTime name (i :: rest) =
      i :: withoutAssignments settleTime name rest := by
  rw [withoutAssignments.eq_def]
  simp only [h, Option.isSome_none, Bool.false_eq_true, if_false]

theorem withoutAssignments_append {front : List Instruction}
    (h : ∀ i ∈ front, i.assigned? name = none) (rest : List Instruction) :
    withoutAssignments settleTime name (front ++ rest) =
      front ++ withoutAssignments settleTime name rest := by
  induction front with
  | nil => rfl
  | cons i front ih =>
      rw [List.cons_append, withoutAssignments_cons_of_other (h i List.mem_cons_self),
        ih fun later hlater => h later (List.mem_cons_of_mem i hlater), List.cons_append]

theorem withoutAssignments_withPause (value : ProcessValue) (rest : List Instruction) :
    withoutAssignments settleTime name
        (Request.withPause settleTime (.assign name value) ++ rest) =
      withoutAssignments settleTime name rest := by
  cases settleTime <;> simp [Request.withPause, withoutAssignments, Instruction.assigned?]

theorem withoutAssignments_assigning (assignments : List (String × ProcessValue))
    (rest : List Instruction) :
    withoutAssignments settleTime name (assigning settleTime assignments ++ rest) =
      assigning settleTime (assignments.filter fun entry => entry.1 ≠ name) ++
        withoutAssignments settleTime name rest := by
  induction assignments with
  | nil => rfl
  | cons entry later ih =>
      obtain ⟨key, value⟩ := entry
      rw [assigning_cons, List.append_assoc]
      by_cases h : key = name
      · subst h
        rw [withoutAssignments_withPause, ih, List.filter_cons_of_neg (by simp)]
      · have hother : ∀ i ∈ Request.withPause settleTime (.assign key value),
            i.assigned? name = none := by
          cases settleTime <;> simp [Request.withPause, Instruction.assigned?, h]
        rw [withoutAssignments_append hother, ih, List.filter_cons_of_pos (by simpa using h),
          assigning_cons, List.append_assoc]

theorem withoutAssignments_leg (leg : Leg) (rest : List Instruction) :
    withoutAssignments settleTime name (leg.instructions settleTime ++ rest) =
      (leg.without name).instructions settleTime ++ withoutAssignments settleTime name rest := by
  rw [Leg.instructions, List.append_assoc, List.append_assoc, withoutAssignments_assigning,
    ← List.append_assoc _ _ rest,
    withoutAssignments_append fun _ hi => assigned?_of_mem_move hi name, Leg.instructions,
    Leg.without]
  simp only [List.append_assoc]

theorem withoutAssignments_legs (legs : List Leg) (rest : List Instruction) :
    withoutAssignments settleTime name (legs.flatMap (Leg.instructions settleTime) ++ rest) =
      (legs.map (·.without name)).flatMap (Leg.instructions settleTime) ++
        withoutAssignments settleTime name rest := by
  induction legs with
  | nil => rfl
  | cons leg later ih =>
      rw [List.flatMap_cons, List.append_assoc, withoutAssignments_leg, ih, List.map_cons,
        List.flatMap_cons, List.append_assoc]

end withoutAssignments

namespace Compiler

variable (c : Compiler) (path : Toolpath)

theorem assigned?_output (on : Bool) (name : String) :
    ∀ i ∈ Reference.output c on, i.assigned? name = none := by
  unfold Reference.output
  cases c.config.processOutput <;> simp [Instruction.assigned?]

theorem withoutAssignments_along (name : String) (first : Waypoint) (legs : List Leg) :
    withoutAssignments c.config.settleTime name (c.along first legs) =
      c.along first (legs.map (·.without name)) := by
  have hopening : ∀ i ∈ c.opening first, i.assigned? name = none := by
    simp only [opening, List.mem_append, List.mem_singleton]
    rintro i ((rfl | hi) | rfl)
    · rfl
    · exact c.assigned?_output true name i hi
    · rfl
  have hclosing : ∀ i ∈ c.closing, i.assigned? name = none := by
    simp only [closing, List.mem_append, List.mem_singleton]
    rintro i (hi | rfl)
    · exact c.assigned?_output false name i hi
    · rfl
  have hend := @withoutAssignments_append c.config.settleTime name _ hclosing []
  rw [List.append_nil] at hend
  rw [along, List.append_assoc, withoutAssignments_append hopening, withoutAssignments_legs, hend,
    withoutAssignments, List.append_nil, along, List.append_assoc]

/-- A leg of the path that lost a variable, when the histories differ in that variable
alone. -/
theorem leg_withoutVariable {name : String} {before before' : List Instruction}
    (h : Alike c.config.pathSpeed (· ≠ name) before before') (w : Waypoint × Nat) :
    c.leg (path.withoutVariable name) before' w = (c.leg path before w).without name := by
  have hvalues : (path.withoutVariable name).valuesAt w.2 = (path.valuesAt w.2).erase name :=
    NameMap.filterMap_erase _ _ _
  have hspeed : (path.withoutVariable name).speedAt w.2 = path.speedAt w.2 := rfl
  rw [leg, hvalues, hspeed, ← h.speed, Config.ordered_erase, leg, Leg.without, List.filter_comm]
  congr 1
  rw [List.filter_filter, List.filter_filter]
  apply List.filter_congr
  intro entry _
  by_cases hname : entry.1 = name
  · simp [hname]
  · simp [isNews, h.values entry.1 hname]

/-- A path fails no check that it passes with one more variable. -/
theorem exists_ok_withoutVariable {p : Program} (h : (c.compile path).result = .ok p)
    (name : String) : ∃ q, (c.compile (path.withoutVariable name)).result = .ok q := by
  rw [exists_ok_iff]
  have hpass := (c.exists_ok_iff path).mp ⟨p, h⟩
  intro fault hfault
  apply hpass
  rw [checks, List.mem_append, List.mem_flatMap] at hfault ⊢
  rcases hfault with hframe | ⟨index, hindex, hvalue⟩
  · exact .inl hframe
  · refine .inr ⟨index, hindex, ?_⟩
    rw [mem_valueChecks_iff] at hvalue ⊢
    rcases hvalue with ⟨key, profile, hprofile, hfault⟩ | hspeed
    · rw [Toolpath.withoutVariable, NameMap.find?_erase] at hprofile
      split at hprofile
      · cases hprofile
      · exact .inl ⟨key, profile, hprofile, hfault⟩
    · exact .inr hspeed

theorem legs_withoutVariable (name : String) (before : List Instruction)
    (ws : List (Waypoint × Nat)) :
    c.legs (path.withoutVariable name) before ws =
      (c.legs path before ws).map (·.without name) := by
  apply Eq.symm
  rw [← List.forall₂_eq_eq_eq, List.forall₂_map_left_iff]
  refine c.forall₂_legs path (fun before before' w h => (c.leg_withoutVariable path h w).symm) ?_
    ⟨fun _ _ => rfl, rfl⟩ ws
  rintro leg _ rfl
  refine ⟨fun key value hne => ?_, rfl⟩
  simp [Leg.without, hne]

/-- A path without one of its variables compiles if the path does, to the same program
without the assignments of that variable and their pauses. -/
theorem compile_withoutVariable {p : Program} (h : (c.compile path).result = .ok p)
    (name : String) :
    (c.compile (path.withoutVariable name)).result =
      .ok { p with instructions := withoutAssignments c.config.settleTime name p.instructions } := by
  obtain ⟨q, hq⟩ := c.exists_ok_withoutVariable path h name
  obtain ⟨first, rest, hwaypoints, rfl⟩ := c.exists_eq_along path h
  obtain ⟨first', rest', hwaypoints', rfl⟩ := c.exists_eq_along _ hq
  obtain ⟨rfl, rfl⟩ := List.cons.inj (hwaypoints'.symm.trans hwaypoints)
  rw [hq, program, program, withoutAssignments_along, legs_withoutVariable]

/-- The path of `pathSetting` with a second variable. -/
def pathSettingTwo : Toolpath :=
  (pathSetting "A").withVariable "B" ⟨[none, some (.switch true)]⟩

theorem compile_withoutVariable_two :
    ∃ p, (standard.compile pathSettingTwo).result = .ok p ∧
      lastAssigned? p.instructions "B" = some (.switch true) ∧
      (standard.compile (pathSettingTwo.withoutVariable "B")).result =
        .ok { p with instructions :=
          withoutAssignments standard.config.settleTime "B" p.instructions } := by
  obtain ⟨p, hp⟩ := exists_ok_of_isOk standard pathSettingTwo (by decide +kernel)
  obtain ⟨first, rest, hwaypoints, hinstructions⟩ := standard.exists_eq_along pathSettingTwo hp
  refine ⟨p, hp, ?_, compile_withoutVariable standard pathSettingTwo hp "B"⟩
  obtain ⟨rfl, rfl⟩ := List.cons.inj hwaypoints
  rw [hinstructions]
  decide +kernel

end Compiler

end RobotPath
