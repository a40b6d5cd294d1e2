import RobotPath.Proofs.Compiler.Legs

/-!
# What the log tells of a program

All that a compilation logs between its beginning and its end belongs to an instruction,
and can be told from that instruction and those before it: which waypoint comes next is
the number of those that were followed, and the latest interpolation is that of the last
move. So the log of a program is told from the program alone, and that of a compilation
that failed from what was written until then.
-/

namespace RobotPath

/-- The kinds of the moves among some instructions, in order. -/
def interpolations (written : List Instruction) : List Interpolation :=
  written.filterMap Instruction.interpolation?

/-- The index of the waypoint that is followed next. The one of index 0 is travelled to. -/
def nextIndex (written : List Instruction) : Nat :=
  (interpolations written).count .continuous + 1

/-- What the log tells of a move, in view of the interpolation before it. -/
def Interpolation.events (latest : Option Interpolation) (i : Interpolation) : List Event :=
  if latest = some i then [] else [.interpolationChanged latest i]

/-- What the log tells of an instruction, in view of those before it. -/
def Instruction.events (before : List Instruction) : Instruction → List Event
  | .pointToPoint _ => Interpolation.pointToPoint.events (interpolations before).getLast?
  | .continuous _ => Interpolation.continuous.events (interpolations before).getLast?
  | .assign name value => [.variableChanged (nextIndex before) name value]
  | .pathSpeed speed => [.pathSpeedChanged (nextIndex before) speed]
  | _ => []

/-- What the log tells of instructions, one after the other. -/
def narration (before : List Instruction) : List Instruction → List Event
  | [] => []
  | i :: rest => i.events before ++ narration (before ++ [i]) rest

/-- What the log tells of the leg to the waypoint of an index. Only the first leg changes
the interpolation, at its move. -/
def Leg.events (leg : Leg) (index : Nat) : List Event :=
  leg.assignments.map (fun (name, value) => .variableChanged index name value) ++
    (leg.speed.map (Event.pathSpeedChanged index)).toList ++
    if index = 1 then [.interpolationChanged (some .pointToPoint) .continuous] else []

section narration

variable {before : List Instruction} {settleTime : Option Float}

theorem interpolations_append (written more : List Instruction) :
    interpolations (written ++ more) = interpolations written ++ interpolations more :=
  List.filterMap_append

theorem narration_singleton (i : Instruction) : narration before [i] = i.events before :=
  List.append_nil _

end narration

/-! ## Runs and their events -/

namespace Request

/-- The index of the waypoint that a request is about, if it names one. -/
def index? : Request → Option Nat
  | .assign index _ _ | .pathSpeed index _ => some index
  | .travel _ | .follow _ | .output .. => none

/-- The index of the waypoint that is followed next, after a request. -/
def indexAfter (index : Nat) : Request → Nat
  | .follow _ => index + 1
  | _ => index

/-- Requests that name no waypoint but the one that is followed next. -/
def InStep : Nat → List Request → Prop
  | _, [] => True
  | index, r :: rest => (∀ named ∈ r.index?, named = index) ∧ InStep (r.indexAfter index) rest

variable {settleTime : Option Float} {t next : Tracker} {r : Request} {emission : Emission}
  {before : List Instruction}

theorem Performed.interpolations_eq (h : r.Performed settleTime t next emission) :
    interpolations emission.instructions = r.interpolation?.toList := by
  cases h with
  | newValue => cases settleTime <;> rfl
  | travel | follow | output | knownValue | knownSpeed | newSpeed => rfl

theorem Performed.interpolation?_next (h : r.Performed settleTime t next emission) :
    next.interpolation? = r.interpolation?.or t.interpolation? := by
  have hphase := h.phaseAfter?
  rw [Request.phaseAfter?] at hphase
  cases hi : r.interpolation? with
  | none =>
      rw [hi] at hphase
      rw [Option.none_or, Tracker.interpolation?, ← Option.some_inj.mp hphase]
      rfl
  | some i =>
      rw [hi] at hphase
      rw [Option.some_or, Tracker.interpolation?, Phase.interpolation?_next hphase]

/-- What the log tells of the instructions that a request writes is what it logs. -/
theorem Performed.events_eq (h : r.Performed settleTime t next emission)
    (hlatest : t.interpolation? = (interpolations before).getLast?)
    (hindex : ∀ named ∈ r.index?, named = nextIndex before) :
    emission.events = narration before emission.instructions := by
  cases h with
  | travel | follow =>
      rw [narration_singleton, Tracker.entering, hlatest]
      rfl
  | output | knownValue | knownSpeed => rfl
  | newValue =>
      rw [hindex _ rfl]
      cases settleTime <;> rfl
  | newSpeed =>
      rw [hindex _ rfl]
      rfl

end Request

/-- A history whose last move a tracker knows, and requests that go on from there. -/
structure Continues (t : Tracker) (before : List Instruction) (rs : List Request) : Prop where
  latest : t.interpolation? = (interpolations before).getLast?
  inStep : Request.InStep (nextIndex before) rs

section runs

variable {settleTime : Option Float} {t next : Tracker} {r : Request} {rs : List Request}
  {emission : Emission} {before : List Instruction}

theorem Continues.step (h : Continues t before (r :: rs))
    (hp : r.Performed settleTime t next emission) :
    emission.events = narration before emission.instructions ∧
      Continues next (before ++ emission.instructions) rs := by
  obtain ⟨hnamed, hrest⟩ := h.inStep
  refine ⟨hp.events_eq h.latest hnamed, ?_, ?_⟩
  · rw [hp.interpolation?_next, h.latest, interpolations_append, hp.interpolations_eq,
      List.getLast?_append]
    cases r.interpolation? <;> rfl
  · have hindex :
        nextIndex (before ++ emission.instructions) = r.indexAfter (nextIndex before) := by
      rw [nextIndex, interpolations_append, hp.interpolations_eq, List.count_append]
      cases r <;> rfl
    rwa [hindex]

end runs

/-! ## Legs and their events -/

section legs

variable {before : List Instruction} {settleTime : Option Float}

end legs

namespace Compiler

variable (c : Compiler) (path : Toolpath)

example : (standard.compile (pathSetting "A")).events =
    [.started "kuka_program", .interpolationChanged none .pointToPoint,
      .variableChanged 1 "A" (.integer 1), .interpolationChanged (some .pointToPoint) .continuous,
      .interpolationChanged (some .continuous) .pointToPoint, .compiled 2 6] := by
  decide +kernel

end Compiler

end RobotPath
