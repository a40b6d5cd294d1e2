import RobotPath.Proofs.Compiler.Causality

/-!
# A program leg by leg

After its first waypoint a program goes on in legs. A leg assigns variables, may set the
path speed, and moves to the next waypoint. Which variables have news is settled before
the leg begins: no name comes twice in it, so no assignment of a leg depends on another.
-/

namespace RobotPath

/-- What is written for one of the later waypoints. -/
structure Leg where
  assignments : List (String × ProcessValue)
  speed : Option Float
  target : Frame
deriving Repr, DecidableEq

/-- Assignments one after the other, each with its pause. -/
def assigning (settleTime : Option Float) (assignments : List (String × ProcessValue)) :
    List Instruction :=
  assignments.flatMap fun (name, value) => Request.withPause settleTime (.assign name value)

def Leg.instructions (settleTime : Option Float) (leg : Leg) : List Instruction :=
  assigning settleTime leg.assignments ++ (leg.speed.map Instruction.pathSpeed).toList ++
    [.continuous leg.target]

/-- Whether a value differs from the one that was assigned last to its variable. -/
def isNews (before : List Instruction) (entry : String × ProcessValue) : Bool :=
  !(lastAssigned? before entry.1).any (· == entry.2)

namespace Toolpath

/-- The values that a path has for variables at an index. -/
def valuesAt (path : Toolpath) (index : Nat) : NameMap ProcessValue :=
  path.profiles.filterMap (·.get? index)

/-- The number that a path has for its speed at an index. -/
def speedAt (path : Toolpath) (index : Nat) : Option Float :=
  (path.speed.bind (·.get? index)).bind ProcessValue.number?

end Toolpath

namespace Compiler

variable (c : Compiler) (path : Toolpath)

/-- The leg to a waypoint, in view of all that was written before it. -/
def leg (before : List Instruction) (w : Waypoint × Nat) : Leg where
  assignments := (c.config.ordered (path.valuesAt w.2)).filter (isNews before)
  speed := (path.speedAt w.2).filter fun speed => !(lastSpeed c.config.pathSpeed before == speed)
  target := c.frame w.1

/-- The legs to some waypoints, one after the other. -/
def legs (before : List Instruction) : List (Waypoint × Nat) → List Leg
  | [] => []
  | w :: rest =>
      let leg := c.leg path before w
      leg :: legs (before ++ leg.instructions c.config.settleTime) rest

/-- What is written up to the first waypoint. -/
def opening (first : Waypoint) : List Instruction :=
  [.pointToPoint c.config.home] ++ Reference.output c true ++
    [.pointToPoint (.cartesian (c.frame first))]

/-- The instructions of a program that goes to its first waypoint, then leg by leg along
the others, and home again. -/
def along (first : Waypoint) (legs : List Leg) : List Instruction :=
  c.opening first ++ legs.flatMap (Leg.instructions c.config.settleTime) ++ c.closing

end Compiler

/-- Two histories that tell the same of some variables and of the path speed. -/
structure Alike (declared : Float) (told : String → Prop) (a b : List Instruction) : Prop where
  values : ∀ name, told name → lastAssigned? a name = lastAssigned? b name
  speed : lastSpeed declared a = lastSpeed declared b

/-- Two legs that tell the same of some variables and of the path speed. -/
structure Leg.Alike (told : String → Prop) (a b : Leg) : Prop where
  assignments : ∀ name value, told name →
    ((name, value) ∈ a.assignments ↔ (name, value) ∈ b.assignments)
  speed : a.speed = b.speed

/-! ## What a leg writes -/

section assigning

variable {settleTime : Option Float} {before : List Instruction}

theorem assigning_cons (entry : String × ProcessValue) (rest : List (String × ProcessValue)) :
    assigning settleTime (entry :: rest) =
      Request.withPause settleTime (.assign entry.1 entry.2) ++ assigning settleTime rest :=
  List.flatMap_cons

/-- After its assignments a leg assigns nothing. -/
theorem assigned?_of_mem_move {leg : Leg} {i : Instruction}
    (h : i ∈ (leg.speed.map Instruction.pathSpeed).toList ++ [.continuous leg.target])
    (name : String) : i.assigned? name = none := by
  rw [List.mem_append, Option.mem_toList, Option.map_eq_some_iff, List.mem_singleton] at h
  rcases h with ⟨speed, -, rfl⟩ | rfl
  · rfl
  · rfl

/-- Values of distinct variables are written in view of what comes before all of them. -/
theorem following_eq_assigning {write : List Instruction → String × ProcessValue → List Instruction}
    (hwrite : ∀ before entry, write before entry =
      if isNews before entry then Request.withPause settleTime (.assign entry.1 entry.2) else [])
    {entries : List (String × ProcessValue)} (hnodup : (entries.map Prod.fst).Nodup) :
    following write before entries = assigning settleTime (entries.filter (isNews before)) := by
  induction entries generalizing before with
  | nil => rfl
  | cons entry rest ih =>
      rw [List.map_cons, List.nodup_cons] at hnodup
      have hrest : rest.filter (isNews (before ++ write before entry)) =
          rest.filter (isNews before) := by
        apply List.filter_congr
        intro later hlater
        have hne : later.1 ≠ entry.1 := fun heq => hnodup.1 (heq ▸ List.mem_map_of_mem hlater)
        rw [hwrite]
        split
        · rw [isNews, isNews, lastAssigned?_append_withPause, if_neg hne]
        · rw [List.append_nil]
      rw [following, ih hnodup.2, hrest, hwrite]
      cases hnews : isNews before entry with
      | true => rw [List.filter_cons_of_pos hnews, assigning_cons, if_pos rfl]
      | false => rw [List.filter_cons_of_neg (by simp [hnews]), if_neg Bool.false_ne_true,
          List.nil_append]

/-- The latest assignment of a variable is that of the last leg, if it has one. -/
theorem lastAssigned?_append_assigning_iff {assignments : List (String × ProcessValue)}
    (hnodup : (assignments.map Prod.fst).Nodup) {name : String} {value : ProcessValue} :
    lastAssigned? (before ++ assigning settleTime assignments) name = some value ↔
      (name, value) ∈ assignments ∨
        (∀ other, (name, other) ∉ assignments) ∧ lastAssigned? before name = some value := by
  induction assignments generalizing before with
  | nil => simp [assigning]
  | cons entry rest ih =>
      obtain ⟨key, found⟩ := entry
      rw [List.map_cons, List.nodup_cons] at hnodup
      rw [assigning_cons, ← List.append_assoc, ih hnodup.2, lastAssigned?_append_withPause]
      by_cases h : name = key
      · subst h
        have habsent (other : ProcessValue) : (name, other) ∉ rest := fun hmem =>
          hnodup.1 (List.mem_map.mpr ⟨_, hmem, rfl⟩)
        simp [habsent, eq_comm]
      · simp [h]

theorem lastSpeed_append_assigning (declared : Float)
    (assignments : List (String × ProcessValue)) :
    lastSpeed declared (before ++ assigning settleTime assignments) =
      lastSpeed declared before := by
  apply lastSpeed_append_of_none
  intro i hi
  obtain ⟨entry, -, hi⟩ := List.mem_flatMap.mp hi
  cases settleTime <;> simp [Request.withPause] at hi
  · rw [hi]; rfl
  · rcases hi with rfl | rfl <;> rfl

theorem lastAssigned?_append_leg_iff {leg : Leg} (hnodup : (leg.assignments.map Prod.fst).Nodup)
    {name : String} {value : ProcessValue} :
    lastAssigned? (before ++ leg.instructions settleTime) name = some value ↔
      (name, value) ∈ leg.assignments ∨
        (∀ other, (name, other) ∉ leg.assignments) ∧ lastAssigned? before name = some value := by
  rw [Leg.instructions, List.append_assoc, ← List.append_assoc,
    lastAssigned?_append_of_none fun _ hi => assigned?_of_mem_move hi name,
    lastAssigned?_append_assigning_iff hnodup]

theorem lastSpeed_append_leg (declared : Float) (leg : Leg) :
    lastSpeed declared (before ++ leg.instructions settleTime) =
      leg.speed.getD (lastSpeed declared before) := by
  have hmove : ∀ i ∈ [Instruction.continuous leg.target], i.pathSpeed? = none := by
    simp [Instruction.pathSpeed?]
  rw [Leg.instructions, ← List.append_assoc, lastSpeed_append_of_none declared hmove,
    ← List.append_assoc]
  cases leg.speed with
  | none => rw [Option.map_none, Option.toList_none, List.append_nil, lastSpeed_append_assigning,
      Option.getD_none]
  | some speed => simp [lastSpeed, List.findSome?_cons, Instruction.pathSpeed?]

/-- Histories that are alike stay so when legs that are alike are added to them. -/
theorem Alike.append {declared : Float} {told : String → Prop} {before before' : List Instruction}
    {settleTime settleTime' : Option Float} {leg leg' : Leg}
    (h : Alike declared told before before') (hleg : leg.Alike told leg')
    (hnodup : (leg.assignments.map Prod.fst).Nodup)
    (hnodup' : (leg'.assignments.map Prod.fst).Nodup) :
    Alike declared told (before ++ leg.instructions settleTime)
      (before' ++ leg'.instructions settleTime') where
  values name htold := by
    apply Option.ext
    intro value
    rw [lastAssigned?_append_leg_iff hnodup, lastAssigned?_append_leg_iff hnodup',
      h.values name htold]
    simp only [hleg.assignments name _ htold]
  speed := by rw [lastSpeed_append_leg, lastSpeed_append_leg, hleg.speed, h.speed]

end assigning

namespace Compiler

variable (c : Compiler) (path : Toolpath)

theorem assignments_eq (before : List Instruction) (w : Waypoint × Nat) :
    following (Reference.assignment c w.2) before (c.config.ordered path.profiles) =
      assigning c.config.settleTime (c.leg path before w).assignments := by
  rw [leg, ← following_eq_assigning (fun _ _ => rfl) (c.config.nodup_names_ordered _),
    Toolpath.valuesAt, Config.ordered_filterMap, following_filterMap]
  apply following_congr
  rintro ⟨name, profile⟩ - before
  dsimp only [Reference.assignment]
  cases profile.get? w.2 with
  | none => rfl
  | some value =>
      simp only [Option.map_some, Option.getD_some, isNews]
      by_cases hknown : (lastAssigned? before name).any (· == value) = true
      · simp [hknown]
      · simp [hknown, Request.withPause]

/-- The block of a waypoint is its leg. -/
theorem block_eq_instructions (before : List Instruction) (w : Waypoint × Nat) :
    Reference.block c path before w =
      (c.leg path before w).instructions c.config.settleTime := by
  have hspeed (assignments : List (String × ProcessValue)) :
      Reference.speedChange c path w.2
        (before ++ assigning c.config.settleTime assignments) =
          ((c.leg path before w).speed.map Instruction.pathSpeed).toList := by
    rw [Reference.speedChange, lastSpeed_append_assigning, leg, Toolpath.speedAt]
    cases (path.speed.bind (·.get? w.2)).bind ProcessValue.number? with
    | none => rfl
    | some speed =>
        simp only [Option.filter_some]
        cases lastSpeed c.config.pathSpeed before == speed <;> rfl
  simp only [Reference.block, assignments_eq, hspeed, Leg.instructions, ← frame_eq_target]
  rfl

/-- Blocks one after the other are legs one after the other. -/
theorem following_block (before : List Instruction) (ws : List (Waypoint × Nat)) :
    following (Reference.block c path) before ws =
      (c.legs path before ws).flatMap (Leg.instructions c.config.settleTime) := by
  induction ws generalizing before with
  | nil => rfl
  | cons w rest ih => rw [following, ih, block_eq_instructions, legs, List.flatMap_cons]

theorem nodup_leg (before : List Instruction) (w : Waypoint × Nat) :
    ((c.leg path before w).assignments.map Prod.fst).Nodup :=
  (c.config.nodup_names_ordered _).sublist (List.filter_sublist.map Prod.fst)

/-- Legs are related one by one when each of them is, in view of histories that are alike. -/
theorem forall₂_legs {c' : Compiler} {path' : Toolpath} {told : String → Prop}
    {Related : Leg → Leg → Prop}
    (hleg : ∀ before before' w, Alike c.config.pathSpeed told before before' →
      Related (c.leg path before w) (c'.leg path' before' w))
    (halike : ∀ a b, Related a b → a.Alike told b) {before before' : List Instruction}
    (h : Alike c.config.pathSpeed told before before') (ws : List (Waypoint × Nat)) :
    List.Forall₂ Related (c.legs path before ws) (c'.legs path' before' ws) := by
  induction ws generalizing before before' with
  | nil => exact .nil
  | cons w rest ih =>
      have hrelated := hleg before before' w h
      exact .cons hrelated (ih (h.append (halike _ _ hrelated) (c.nodup_leg path before w)
        (c'.nodup_leg path' before' w)))

theorem map_target_legs (before : List Instruction) (waypoints : List Waypoint) (start : Nat) :
    (c.legs path before (waypoints.zipIdx start)).map Leg.target = waypoints.map c.frame := by
  induction waypoints generalizing before start with
  | nil => rfl
  | cons w rest ih => rw [List.zipIdx_cons, legs, List.map_cons, ih, List.map_cons]; rfl

/-- A program is its opening, a leg for each later waypoint, and its closing. -/
theorem exists_eq_along {p : Program} (h : (c.compile path).result = .ok p) :
    ∃ first rest, path.waypoints = first :: rest ∧
      p = c.program (c.along first (c.legs path (c.opening first) (rest.zipIdx 1))) := by
  obtain ⟨hne, instructions, hrun, rfl⟩ := c.compile_eq_ok path h
  obtain ⟨first, rest, hwaypoints⟩ := List.exists_cons_of_ne_nil hne
  refine ⟨first, rest, hwaypoints, ?_⟩
  rw [Run.result_eq_following (Tracks.starting c.config.pathSpeed) hrun, hwaypoints]
  change c.program (c.writes [] _) = _
  rw [c.writes_requests path first rest, Reference.instructions, ← c.frame_eq_target first,
    following_block, along, closing, opening, List.append_assoc]

end Compiler

end RobotPath
