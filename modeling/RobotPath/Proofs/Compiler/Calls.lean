import RobotPath.Proofs.Compiler.Run
import RobotPath.Proofs.Motion.Course

/-!
# Calls of a tracker

A tracker can be used in any order: to observe a value of a variable, to observe a path
speed, and to make a move. The moves that it accepts form a course and no other move is
refused, and what is observed in between has no say in that.
-/

namespace RobotPath

/-- One use of a tracker. -/
inductive Call where
  | observeVariable (name : String) (value : ProcessValue)
  | observePathSpeed (speed : Float)
  | enter (i : Interpolation)
deriving Repr, DecidableEq

/-- Whether a call tries to make a move. -/
def Call.isEnter : Call → Bool
  | .enter _ => true
  | .observeVariable .. | .observePathSpeed _ => false

namespace Tracker

/-- A tracker before its first call. It may know a path speed already. -/
def opening : Option Float → Tracker
  | none => fresh
  | some pathSpeed => starting pathSpeed

/-- The tracker after a call. It stays what it was when a value is no news, and when a
move is refused. -/
def afterCall (t : Tracker) : Call → Tracker
  | .observeVariable name value => (t.observeVariable? name value).getD t
  | .observePathSpeed speed => (t.observePathSpeed? speed).getD t
  | .enter i => match t.enter i with
      | .ok next => next
      | .error _ => t

def afterCalls (t : Tracker) (calls : List Call) : Tracker := calls.foldl afterCall t

/-- The move that a call makes, unless it is refused. -/
def accepted? (t : Tracker) : Call → Option Interpolation
  | .enter i => match t.enter i with
      | .ok _ => some i
      | .error _ => none
  | .observeVariable .. | .observePathSpeed _ => none

/-- The moves that are made in the course of some calls. -/
def accepted (t : Tracker) : List Call → List Interpolation
  | [] => []
  | call :: rest => (t.accepted? call).toList ++ (t.afterCall call).accepted rest

variable {t : Tracker}

theorem isOk_enter_iff {i : Interpolation} :
    (t.enter i).isOk = true ↔ ∃ phase, t.phase.next? i = some phase := by
  unfold enter
  cases t.phase.next? i with
  | none => exact iff_of_false Bool.false_ne_true (by simp)
  | some phase => exact iff_of_true rfl ⟨phase, rfl⟩

/-- Observing something leaves the phase alone. -/
theorem phase_afterCall_of_observe {call : Call} (h : call.isEnter = false) :
    (t.afterCall call).phase = t.phase := by
  cases call with
  | observeVariable name value =>
      cases hobserve : t.observeVariable? name value with
      | none => simp [afterCall, hobserve]
      | some next =>
          obtain ⟨-, rfl⟩ := observeVariable?_eq_some.mp hobserve
          simp [afterCall, hobserve]
  | observePathSpeed speed =>
      cases hobserve : t.observePathSpeed? speed with
      | none => simp [afterCall, hobserve]
      | some next =>
          obtain ⟨-, rfl⟩ := observePathSpeed?_eq_some.mp hobserve
          simp [afterCall, hobserve]
  | enter i => cases h

theorem enter_of_next {i : Interpolation} {phase : Phase} (h : t.phase.next? i = some phase) :
    t.accepted? (.enter i) = some i ∧ t.afterCall (.enter i) = { t with phase } := by
  have henter : t.enter i = .ok { t with phase } := enter_eq_ok_iff.mpr ⟨phase, h, rfl⟩
  simp only [accepted?, afterCall, henter, and_self]

theorem enter_of_refused {i : Interpolation} (h : t.phase.next? i = none) :
    t.accepted? (.enter i) = none ∧ t.afterCall (.enter i) = t := by
  have henter : t.enter i = .error (.input (.illegalMove i t.phase)) :=
    enter_eq_error_iff.mpr ⟨h, rfl⟩
  simp only [accepted?, afterCall, henter, and_self]

/-- What an attempt to make a move does depends on the phase alone. -/
theorem enter_eq_of_phase_eq {u : Tracker} (h : t.phase = u.phase) (i : Interpolation) :
    t.accepted? (.enter i) = u.accepted? (.enter i) ∧
      (t.afterCall (.enter i)).phase = (u.afterCall (.enter i)).phase := by
  cases hnext : u.phase.next? i with
  | none =>
      obtain ⟨haccepted, hafter⟩ := enter_of_refused hnext
      obtain ⟨haccepted', hafter'⟩ := enter_of_refused (h.symm ▸ hnext)
      rw [haccepted, hafter, haccepted', hafter']
      exact ⟨rfl, h⟩
  | some phase =>
      obtain ⟨haccepted, hafter⟩ := enter_of_next hnext
      obtain ⟨haccepted', hafter'⟩ := enter_of_next (h.symm ▸ hnext)
      rw [haccepted, hafter, haccepted', hafter']
      exact ⟨rfl, rfl⟩

/-- A call leads from words of one phase to words of the next. -/
theorem afterCall_words {before : List Interpolation} (h : before ∈ t.phase.words) (call : Call) :
    before ++ (t.accepted? call).toList ∈ (t.afterCall call).phase.words := by
  cases call with
  | observeVariable | observePathSpeed =>
      rw [phase_afterCall_of_observe rfl]
      simpa [accepted?] using h
  | enter i =>
      cases hnext : t.phase.next? i with
      | none =>
          obtain ⟨haccepted, hafter⟩ := enter_of_refused hnext
          rw [haccepted, hafter]
          simpa using h
      | some phase =>
          obtain ⟨haccepted, hafter⟩ := enter_of_next hnext
          rw [haccepted, hafter]
          exact Phase.concat_mem_words_iff.mpr ⟨t.phase, h, hnext⟩

theorem afterCalls_words {before : List Interpolation} (h : before ∈ t.phase.words)
    (calls : List Call) :
    before ++ t.accepted calls ∈ (t.afterCalls calls).phase.words := by
  induction calls generalizing t before with
  | nil => simpa [accepted, afterCalls] using h
  | cons call rest ih =>
      rw [accepted, ← List.append_assoc]
      exact ih (afterCall_words h call)

/-- Calls that observe something can be left out as far as moves are concerned, and so
can all that a tracker knows besides its phase. -/
theorem afterCalls_filter {u : Tracker} (h : t.phase = u.phase) (calls : List Call) :
    t.accepted calls = u.accepted (calls.filter Call.isEnter) ∧
      (t.afterCalls calls).phase = (u.afterCalls (calls.filter Call.isEnter)).phase := by
  induction calls generalizing t u with
  | nil => exact ⟨rfl, h⟩
  | cons call rest ih =>
      cases call with
      | observeVariable | observePathSpeed => exact ih ((phase_afterCall_of_observe rfl).trans h)
      | enter i =>
          have hcons : (Call.enter i :: rest).filter Call.isEnter =
              .enter i :: rest.filter Call.isEnter := rfl
          obtain ⟨haccepted, hphase⟩ := enter_eq_of_phase_eq h i
          obtain ⟨hrest, hafter⟩ := ih hphase
          rw [hcons, accepted, accepted, haccepted, hrest]
          exact ⟨rfl, hafter⟩

theorem phase_opening (pathSpeed : Option Float) : (opening pathSpeed).phase = .notStarted := by
  cases pathSpeed <;> rfl

/-- The moves that a tracker accepts form a course, and it accepts every move that
continues it. A move that is refused changes nothing. So the moves go over to the path
and back at most once each, none follows the path before the first travel or after the
return, and the latest interpolation is that of the last move. None of this depends on
what is observed. -/
theorem accepted_course (pathSpeed : Option Float) (calls : List Call) :
    let t := (opening pathSpeed).afterCalls calls
    let moves := (opening pathSpeed).accepted calls
    moves ∈ course ∧
      (∀ i, (t.enter i).isOk = true ↔ moves ++ [i] ∈ course) ∧
      (∀ i e, t.enter i = .error e →
        e = .input (.illegalMove i t.phase) ∧ t.afterCall (.enter i) = t) ∧
      t.interpolation? = moves.getLast? ∧
      changes .pointToPoint .continuous moves ≤ 1 ∧
      changes .continuous .pointToPoint moves ≤ 1 ∧
      (∀ front back, moves = front ++ .continuous :: back →
        .pointToPoint ∈ front ∧ changes .continuous .pointToPoint front = 0) ∧
      moves = fresh.accepted (calls.filter Call.isEnter) ∧
      t.phase = (fresh.afterCalls (calls.filter Call.isEnter)).phase := by
  intro t moves
  have hstart : [] ∈ (opening pathSpeed).phase.words :=
    Phase.nil_mem_words_iff.mpr (phase_opening pathSpeed)
  have hwords : moves ∈ t.phase.words := afterCalls_words hstart calls
  have hcourse : moves ∈ course := Phase.mem_course_iff.mpr ⟨t.phase, hwords⟩
  have hrecalls := Phase.recalls_of_mem_words hwords
  have hfilter := @afterCalls_filter (opening pathSpeed) fresh (phase_opening pathSpeed) calls
  refine ⟨hcourse, fun i => ?_, fun i e h => ?_, hrecalls.last.symm, ?_, ?_, ?_, hfilter⟩
  · rw [isOk_enter_iff, Phase.mem_course_iff]
    constructor
    · rintro ⟨after, hnext⟩
      exact ⟨after, Phase.concat_mem_words_iff.mpr ⟨t.phase, hwords, hnext⟩⟩
    · rintro ⟨after, hafter⟩
      obtain ⟨phase, hmoves, hnext⟩ := Phase.concat_mem_words_iff.mp hafter
      -- The moves so far lead to one phase only, which is that of the tracker.
      exact ⟨after, Phase.eq_of_mem_words hmoves hwords ▸ hnext⟩
  · obtain ⟨-, rfl⟩ := enter_eq_error_iff.mp h
    exact ⟨rfl, by rw [afterCall, h]⟩
  · rw [hrecalls.departures]
    split <;> omega
  · rw [hrecalls.returns]
    split <;> omega
  · intro front back heq
    exact before_continuous (heq ▸ hcourse)

/-- Moves that are tried too early, made in turn, and tried again after the return, with
values observed in between. -/
def tour : List Call :=
  [.enter .continuous, .enter .pointToPoint, .observeVariable "A" (.switch true),
    .enter .continuous, .observePathSpeed 0.1, .enter .pointToPoint, .enter .continuous]

theorem accepted_course_tour :
    (opening (some 0.05)).accepted tour = [.pointToPoint, .continuous, .pointToPoint] ∧
      [.pointToPoint, .continuous, .pointToPoint] ++ [.pointToPoint] ∈ course ∧
      ((opening (some 0.05)).afterCalls tour).enter .continuous =
        .error (.input (.illegalMove .continuous .homeward)) ∧
      ((opening (some 0.05)).afterCalls tour).afterCall (.enter .continuous) =
        (opening (some 0.05)).afterCalls tour ∧
      .pointToPoint ∈ [Interpolation.pointToPoint] ∧
      changes .continuous .pointToPoint [.pointToPoint] = 0 := by
  have hmoves : (opening (some 0.05)).accepted tour =
      [.pointToPoint, .continuous, .pointToPoint] := by decide +kernel
  have hphase : ((opening (some 0.05)).afterCalls tour).phase = .homeward := by decide +kernel
  have hrefused : ((opening (some 0.05)).afterCalls tour).enter .continuous =
      .error (.input (.illegalMove .continuous .homeward)) :=
    enter_eq_error_iff.mpr ⟨by rw [hphase]; rfl, by rw [hphase]⟩
  have htravel : (((opening (some 0.05)).afterCalls tour).enter .pointToPoint).isOk = true :=
    isOk_enter_iff.mpr ⟨.homeward, by rw [hphase]; rfl⟩
  obtain ⟨-, haccepts, hstays, -, -, -, hbefore, -⟩ := accepted_course (some 0.05) tour
  rw [hmoves] at haccepts hbefore
  exact ⟨hmoves, (haccepts .pointToPoint).mp htravel, hrefused, (hstays .continuous _ hrefused).2,
    hbefore [.pointToPoint] [.pointToPoint] rfl⟩

end Tracker

end RobotPath
