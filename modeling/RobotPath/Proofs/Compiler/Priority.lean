import RobotPath.Proofs.Compiler.Legs

/-!
# What the priority of variables decides

The priority says in which order a leg assigns its variables. Whether there is a program
at all, what its legs assign, and everything else in it are the same for all priorities.
-/

namespace RobotPath

/-- Two legs with the same assignments in any order, and otherwise the same. -/
structure Leg.Permutes (a b : Leg) : Prop where
  assignments : a.assignments.Perm b.assignments
  speed : a.speed = b.speed
  target : a.target = b.target

/-- An instruction that is no assignment. -/
def Instruction.other? : Instruction → Option Instruction
  | .assign _ _ => none
  | i => some i

section positions

variable {settleTime : Option Float}

theorem other?_eq_some_iff {i j : Instruction} :
    i.other? = some j ↔ i = j ∧ ∀ name value, j ≠ .assign name value := by
  cases i <;> simp [Instruction.other?] <;> rintro rfl <;> simp

/-- Where assignments stand does not depend on what they assign. -/
theorem map_other?_assigning (assignments : List (String × ProcessValue)) :
    (assigning settleTime assignments).map Instruction.other? =
      (List.replicate assignments.length
        (none :: ((settleTime.map Instruction.wait).toList.map some))).flatten := by
  induction assignments with
  | nil => rfl
  | cons entry rest ih =>
      rw [assigning_cons, List.map_append, List.length_cons, List.replicate_succ,
        List.flatten_cons, ← ih]
      cases settleTime <;> rfl

theorem Leg.Permutes.map_other? {a b : Leg} (h : a.Permutes b) :
    (a.instructions settleTime).map Instruction.other? =
      (b.instructions settleTime).map Instruction.other? := by
  simp only [Leg.instructions, List.map_append, map_other?_assigning, h.assignments.length_eq,
    h.speed, h.target]

/-- Programs that differ in the assignments at some positions have the same instructions
at all other positions. -/
theorem getElem?_eq_some_iff_of_map_other? {a b : List Instruction}
    (h : a.map Instruction.other? = b.map Instruction.other?) {k : Nat} {i : Instruction}
    (hi : ∀ name value, i ≠ .assign name value) : a[k]? = some i ↔ b[k]? = some i := by
  have hother (instructions : List Instruction) :
      instructions[k]? = some i ↔ (instructions.map Instruction.other?)[k]? = some (some i) := by
    rw [List.getElem?_map, Option.map_eq_some_iff]
    simp only [other?_eq_some_iff]
    constructor
    · intro hk
      exact ⟨i, hk, rfl, hi⟩
    · rintro ⟨_, hk, rfl, -⟩
      exact hk
  rw [hother, hother, h]

end positions

namespace MotionError

/-- The same failure, but for the value that is named when a variable has a value which no
program can hold. -/
inductive Corresponds : MotionError → MotionError → Prop where
  | refl (e : MotionError) : Corresponds e e
  | notRepresentable (value other : Float) :
      Corresponds (.unsupportedValue (.notRepresentable value))
        (.unsupportedValue (.notRepresentable other))

theorem Corresponds.kind_eq {e e' : MotionError} (h : e.Corresponds e') : e.kind = e'.kind := by
  cases h <;> rfl

theorem rel_refl (fault : Option MotionError) : Option.Rel Corresponds fault fault := by
  cases fault with
  | none => exact .none
  | some e => exact .some (.refl e)

theorem rel_or {fault fault' later later' : Option MotionError}
    (h : Option.Rel Corresponds fault fault') (hlater : Option.Rel Corresponds later later') :
    Option.Rel Corresponds (fault.or later) (fault'.or later') := by
  cases h with
  | none => exact hlater
  | some h => exact .some h

/-- Checks in another order have a fault or not as before, though maybe another of them
comes first. -/
theorem rel_firstFault?_of_perm {checks checks' : List (Option MotionError)}
    (hperm : checks.Perm checks')
    (hvalue : ∀ e, some e ∈ checks → ∃ value, e = .unsupportedValue (.notRepresentable value)) :
    Option.Rel Corresponds (firstFault? checks) (firstFault? checks') := by
  have hnone : firstFault? checks = none ↔ firstFault? checks' = none := by
    simp only [firstFault?, List.findSome?_eq_none_iff, hperm.mem_iff]
  cases hfault : firstFault? checks with
  | none =>
      rw [hnone.mp hfault]
      exact .none
  | some e =>
      cases hfault' : firstFault? checks' with
      | none =>
          rw [hnone.mpr hfault'] at hfault
          cases hfault
      | some e' =>
          obtain ⟨value, rfl⟩ := hvalue e (mem_of_firstFault? hfault)
          obtain ⟨other, rfl⟩ := hvalue e' (hperm.mem_iff.mpr (mem_of_firstFault? hfault'))
          exact .some (.notRepresentable value other)

end MotionError

namespace Compiler

open MotionError

variable (c : Compiler) (path : Toolpath)

/-- The compiler with another priority of variables. -/
def withPriority (names : List String) : Compiler :=
  { c with config := { c.config with variablePriority := names } }

theorem leg_withPriority (names : List String) {before before' : List Instruction}
    (h : Alike c.config.pathSpeed (fun _ => True) before before') (w : Waypoint × Nat) :
    (c.leg path before w).Permutes ((c.withPriority names).leg path before' w) where
  assignments := by
    have hnews : isNews before = isNews before' := by
      funext entry
      rw [isNews, isNews, h.values entry.1 trivial]
    rw [leg, leg, hnews]
    exact (Config.perm_ordered _ _ _).filter _
  speed := by
    have hdeclared : (c.withPriority names).config.pathSpeed = c.config.pathSpeed := rfl
    rw [leg, leg, hdeclared, h.speed]
  target := rfl

theorem legs_withPriority (names : List String) (before : List Instruction)
    (ws : List (Waypoint × Nat)) :
    List.Forall₂ Leg.Permutes (c.legs path before ws)
      ((c.withPriority names).legs path before ws) := by
  refine c.forall₂_legs path (fun _ _ w h => c.leg_withPriority path names h w) ?_
    ⟨fun _ _ => rfl, rfl⟩ ws
  intro leg leg' h
  exact ⟨fun name value _ => h.assignments.mem_iff, h.speed⟩

theorem map_other?_along (names : List String) (first : Waypoint) {legs legs' : List Leg}
    (h : List.Forall₂ Leg.Permutes legs legs') :
    (c.along first legs).map Instruction.other? =
      ((c.withPriority names).along first legs').map Instruction.other? := by
  have hlegs : (legs.flatMap (Leg.instructions c.config.settleTime)).map Instruction.other? =
      (legs'.flatMap (Leg.instructions c.config.settleTime)).map Instruction.other? := by
    induction h with
    | nil => rfl
    | cons hleg _ ih =>
        rw [List.flatMap_cons, List.flatMap_cons, List.map_append, List.map_append,
          hleg.map_other?, ih]
  have hopening : (c.withPriority names).opening first = c.opening first := rfl
  have hclosing : (c.withPriority names).closing = c.closing := rfl
  have hsettle : (c.withPriority names).config.settleTime = c.config.settleTime := rfl
  simp only [along, hopening, hclosing, hsettle, List.map_append, hlegs]

/-! ## Failures -/

theorem rel_valueChecks_withPriority (names : List String) (index : Nat) :
    Option.Rel Corresponds (firstFault? (c.valueChecks path index))
      (firstFault? ((c.withPriority names).valueChecks path index)) := by
  rw [valueChecks, valueChecks, firstFault?_append, firstFault?_append]
  apply rel_or
  · apply rel_firstFault?_of_perm
    · exact (Config.perm_ordered _ _ _).map _
    · intro e he
      obtain ⟨entry, -, hentry⟩ := List.mem_map.mp he
      obtain ⟨value, -, hvalue⟩ := Option.bind_eq_some_iff.mp hentry
      cases value with
      | switch | integer => cases hvalue
      | decimal value => exact ⟨value, (eq_of_check hvalue).symm⟩
  · exact rel_refl _

theorem rel_checks_withPriority (names : List String) :
    Option.Rel Corresponds (firstFault? (c.checks path))
      (firstFault? ((c.withPriority names).checks path)) := by
  rw [checks, checks, firstFault?_append, firstFault?_append]
  apply rel_or
  · exact rel_refl _
  · induction List.range' 1 (path.waypoints.length - 1) with
    | nil => exact .none
    | cons index rest ih =>
        rw [List.flatMap_cons, List.flatMap_cons, firstFault?_append, firstFault?_append]
        exact rel_or (c.rel_valueChecks_withPriority path names index) ih

/-! ## Programs -/

/-- Two programs of a path that differ at most in the order of the assignments of a leg. All
other instructions have the same positions. -/
structure Reorders (p q : Program) : Prop where
  name : p.name = q.name
  declarations : p.declarations = q.declarations
  others : ∀ (k : Nat) (i : Instruction), (∀ name value, i ≠ .assign name value) →
    (p.instructions[k]? = some i ↔ q.instructions[k]? = some i)
  legs : ∃ first rest legs legs', path.waypoints = first :: rest ∧
    legs.map Leg.target = rest.map c.frame ∧
    p.instructions = c.along first legs ∧ q.instructions = c.along first legs' ∧
    List.Forall₂ Leg.Permutes legs legs'

theorem reorders_withPriority (names : List String) {p q : Program}
    (hp : (c.compile path).result = .ok p)
    (hq : ((c.withPriority names).compile path).result = .ok q) : c.Reorders path p q := by
  obtain ⟨first, rest, hwaypoints, rfl⟩ := c.exists_eq_along path hp
  obtain ⟨first', rest', hwaypoints', rfl⟩ := exists_eq_along _ path hq
  obtain ⟨rfl, rfl⟩ := List.cons.inj (hwaypoints'.symm.trans hwaypoints)
  have hlegs := c.legs_withPriority path names (c.opening first') (rest'.zipIdx 1)
  refine ⟨rfl, rfl, ?_, first', rest', _, _, hwaypoints, c.map_target_legs path _ rest' 1, rfl,
    rfl, hlegs⟩
  intro k i hi
  exact getElem?_eq_some_iff_of_map_other? (c.map_other?_along names first' hlegs) hi

/-- The priority changes neither whether a path compiles nor, but for the order of the
assignments within a leg, the program. If it does not compile, all that may change is which
of several faulty values of one waypoint is reported. -/
theorem compile_withPriority (names : List String) :
    match (c.compile path).result, ((c.withPriority names).compile path).result with
    | .error e, .error e' => e.kind = e'.kind ∧ e.Corresponds e'
    | .ok p, .ok q => c.Reorders path p q
    | _, _ => False := by
  have hrel := c.rel_checks_withPriority path names
  cases hp : (c.compile path).result with
  | error e =>
      rw [(c.result_eq_error_iff path).mp hp] at hrel
      cases hq : ((c.withPriority names).compile path).result with
      | error e' =>
          rw [(result_eq_error_iff _ path).mp hq] at hrel
          cases hrel with
          | some h => exact ⟨h.kind_eq, h⟩
      | ok q =>
          rw [(exists_ok_iff_firstFault? _ path).mp ⟨q, hq⟩] at hrel
          cases hrel
  | ok p =>
      rw [(c.exists_ok_iff_firstFault? path).mp ⟨p, hp⟩] at hrel
      cases hq : ((c.withPriority names).compile path).result with
      | error e' =>
          rw [(result_eq_error_iff _ path).mp hq] at hrel
          cases hrel
      | ok q => exact c.reorders_withPriority path names hp hq

end Compiler

end RobotPath
