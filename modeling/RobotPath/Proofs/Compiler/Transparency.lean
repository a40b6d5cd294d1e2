import RobotPath.Proofs.Compiler.Checks
import RobotPath.Proofs.Compiler.Controller

/-!
# Leaving out what is no news

A compiler that writes every value it finds makes a longer program. A controller
cannot tell the two apart at any move, because an assignment that is left out would
have stored what its register holds already.
-/

namespace RobotPath

namespace Request

/-- Carries out one request and writes its value, news or not. -/
def performPlainly (settleTime : Option Float) (t : Tracker) :
    Request → Except MotionError (Tracker × Emission)
  | assign index name value => do
      let instruction ← Instruction.checkedAssign name value
      return (t, ⟨withPause settleTime instruction, [.variableChanged index name value]⟩)
  | pathSpeed index value => do
      let speed ← speed index value
      return (t, ⟨[.pathSpeed speed], [.pathSpeedChanged index speed]⟩)
  | other => other.perform settleTime t

variable {settleTime : Option Float} {t : Tracker} {index : Nat} {value : ProcessValue}

theorem performPlainly_assign {name text : String} (h : value.literal? = .ok text) :
    (Request.assign index name value).performPlainly settleTime t =
      .ok (t, ⟨withPause settleTime (.assign name value),
        [.variableChanged index name value]⟩) := by
  rw [performPlainly, Instruction.checkedAssign, h]
  rfl

theorem performPlainly_pathSpeed {speed : Float} (h : Request.speed index value = .ok speed) :
    (Request.pathSpeed index value).performPlainly settleTime t =
      .ok (t, ⟨[.pathSpeed speed], [.pathSpeedChanged index speed]⟩) := by
  rw [performPlainly, h]
  rfl

theorem performPlainly_move {r : Request} {i : Interpolation} (h : r.interpolation? = some i) :
    r.performPlainly settleTime t = r.perform settleTime t := by
  cases r with
  | travel | follow => rfl
  | output | assign | pathSpeed => cases h

theorem performPlainly_of_fault {r : Request} {e : MotionError} (h : r.fault? = some e) :
    r.performPlainly settleTime t = .error e := by
  cases r with
  | travel | follow | output => cases h
  | assign index name value =>
      rw [fault?] at h
      rw [performPlainly, Instruction.checkedAssign]
      cases hliteral : value.literal? with
      | ok text => rw [hliteral] at h; cases h
      | error e => rw [hliteral] at h; cases h; rfl
  | pathSpeed index value =>
      rw [fault?] at h
      rw [performPlainly]
      cases hspeed : Request.speed index value with
      | ok speed => rw [hspeed] at h; cases h
      | error e => rw [hspeed] at h; cases h; rfl

end Request

namespace Run

/-- Carries out the requests in order and writes every value. -/
def ofRequestsPlainly (settleTime : Option Float) : Tracker → List Request → Run
  | _, [] => ⟨.nothing, none⟩
  | t, request :: rest =>
      match request.performPlainly settleTime t with
      | .error e => ⟨.nothing, some e⟩
      | .ok (next, emission) => (ofRequestsPlainly settleTime next rest).after emission

end Run

/-- Compiles a toolpath into a program in which every value is written. -/
def Compiler.compilePlainly (c : Compiler) (path : Toolpath) : Except MotionError Program :=
  (c.frames path).bind fun frames =>
    (Run.ofRequestsPlainly c.config.settleTime (Tracker.starting c.config.pathSpeed)
      (c.requests path frames)).result.map c.program

/-- A controller whose registers hold what a tracker takes for the latest values. -/
structure Mirrors (k : Controller) (t : Tracker) : Prop where
  registers : ∀ name value, t.value? name = some value →
    k.registers name = Setting.ofLiteral? value.literal
  pathSpeed : t.pathSpeed = some k.pathSpeed

/-- One list of instructions does without some of another, and a controller is the
same at every move of both. -/
structure Condenses (k : Controller) (short long : List Instruction) : Prop where
  sublist : short.Sublist long
  moves : k.moves short = k.moves long
  after : k.after short = k.after long

namespace Condenses

variable {k : Controller} {short long short' long' : List Instruction}

theorem refl (k : Controller) (instructions : List Instruction) :
    Condenses k instructions instructions :=
  ⟨List.Sublist.refl _, rfl, rfl⟩

theorem append (h : Condenses k short long) (h' : Condenses (k.after short) short' long') :
    Condenses k (short ++ short') (long ++ long') where
  sublist := h.sublist.append h'.sublist
  moves := by
    rw [Controller.moves_append, Controller.moves_append, h.moves, ← h.after, h'.moves]
  after := by
    rw [Controller.after_append, Controller.after_append, h'.after, h.after]

/-- An assignment that stores what is stored already can be left out. -/
theorem withPause_assign {name : String} {value : ProcessValue} (settleTime : Option Float)
    (h : k.registers name = Setting.ofLiteral? value.literal) :
    Condenses k [] (Request.withPause settleTime (.assign name value)) where
  sublist := List.nil_sublist _
  moves := (Controller.moves_withPause_assign settleTime name value).symm
  after := by
    rw [Controller.after_withPause, Controller.execute_assign_of_eq h]
    rfl

theorem pathSpeed (k : Controller) : Condenses k [] [.pathSpeed k.pathSpeed] :=
  ⟨List.nil_sublist _, rfl, rfl⟩

end Condenses

namespace Mirrors

variable {k : Controller} {t u next : Tracker} {settleTime : Option Float} {r : Request}
  {emission : Emission}

theorem declared (pathSpeed : Float) :
    Mirrors (Controller.declared pathSpeed) (Tracker.starting pathSpeed) :=
  ⟨fun _ _ h => (Option.some_ne_none _ h.symm).elim, rfl⟩

theorem enter (h : Mirrors k t) {phase : Phase} : Mirrors k { t with phase } :=
  ⟨h.registers, h.pathSpeed⟩

theorem assign (h : Mirrors k t) (name : String) (value : ProcessValue) :
    Mirrors (k.execute (.assign name value)) { t with values := t.values.insert name value } where
  registers key latest hlatest := by
    rw [Tracker.value?, NameMap.find?_insert] at hlatest
    split at hlatest
    next heq =>
      cases hlatest
      exact if_pos heq
    next hne => exact (if_neg hne).trans (h.registers key latest hlatest)
  pathSpeed := h.pathSpeed

/-- A request that succeeds also succeeds when its value is written in any case, and
the controller cannot tell the difference. -/
theorem step (h : Mirrors k t) (hphase : u.phase = t.phase)
    (hp : r.Performed settleTime t next emission) :
    Mirrors (k.after emission.instructions) next ∧
      ∃ next' plain, r.performPlainly settleTime u = .ok (next', plain) ∧
        next'.phase = next.phase ∧ Condenses k emission.instructions plain.instructions := by
  cases hp with
  | travel henter =>
      obtain ⟨phase, rfl, henter'⟩ := Tracker.enter_of_phase_eq hphase henter
      exact ⟨h.enter, _, _, @Request.perform_eq_ok settleTime u _ _ _ (.travel henter'), rfl,
        Condenses.refl k _⟩
  | follow henter =>
      obtain ⟨phase, rfl, henter'⟩ := Tracker.enter_of_phase_eq hphase henter
      exact ⟨h.enter, _, _, @Request.perform_eq_ok settleTime u _ _ _ (.follow henter'), rfl,
        Condenses.refl k _⟩
  | output => exact ⟨h, u, _, rfl, hphase, Condenses.refl k _⟩
  | @knownValue index name value text hliteral hobserve =>
      -- The register holds the latest value, and that is equal to the new one.
      have hknown := Tracker.observeVariable?_eq_none.mp hobserve
      obtain ⟨latest, hlatest, heq⟩ := (Option.any_eq_true _ _).mp hknown
      have hstored := (h.registers name latest hlatest).trans (Setting.ofLiteral?_eq_of_beq heq)
      exact ⟨h, u, _, Request.performPlainly_assign hliteral, hphase,
        Condenses.withPause_assign settleTime hstored⟩
  | @newValue index name value text next hliteral hobserve =>
      obtain ⟨-, rfl⟩ := Tracker.observeVariable?_eq_some.mp hobserve
      refine ⟨?_, u, _, Request.performPlainly_assign hliteral, hphase, Condenses.refl k _⟩
      rw [Controller.after_withPause]
      exact h.assign name value
  | @knownSpeed index value speed hspeed hobserve =>
      -- Speeds are positive, so the register holds this very speed.
      obtain ⟨-, hspeed'⟩ := Request.number?_of_speed hspeed
      have hpositive := Config.zero_lt_of_isSpeed hspeed'
      have hknown := Tracker.observePathSpeed?_eq_none.mp hobserve
      rw [h.pathSpeed, Option.any_some] at hknown
      obtain rfl := Reading.eq_of_beq_of_pos hknown hpositive
      exact ⟨h, u, _, Request.performPlainly_pathSpeed hspeed, hphase, Condenses.pathSpeed k⟩
  | @newSpeed index value speed next hspeed hobserve =>
      obtain ⟨-, rfl⟩ := Tracker.observePathSpeed?_eq_some.mp hobserve
      exact ⟨⟨h.registers, rfl⟩, u, _, Request.performPlainly_pathSpeed hspeed, hphase,
        Condenses.refl k _⟩

end Mirrors

/-- Two runs that stop for the same reason, or both reach their end with one list of
instructions that condenses the other. -/
inductive Agree (k : Controller) :
    Except MotionError (List Instruction) → Except MotionError (List Instruction) → Prop where
  | stopped (e : MotionError) : Agree k (.error e) (.error e)
  | finished {short long : List Instruction} (h : Condenses k short long) :
      Agree k (.ok short) (.ok long)

theorem Agree.after {k : Controller} {short long : List Instruction}
    {a b : Except MotionError (List Instruction)} (h : Condenses k short long)
    (hrest : Agree (k.after short) a b) : Agree k (a.map (short ++ ·)) (b.map (long ++ ·)) := by
  cases hrest with
  | stopped e => exact .stopped e
  | finished hlater => exact .finished (h.append hlater)

/-- Writing every value changes neither whether a run reaches its end nor what a
controller makes of it. -/
theorem Run.agree {k : Controller} {t u : Tracker} {settleTime : Option Float} (h : Mirrors k t)
    (hphase : u.phase = t.phase) (rs : List Request) :
    Agree k (ofRequests settleTime t rs).result (ofRequestsPlainly settleTime u rs).result := by
  induction rs generalizing t u k with
  | nil => exact .finished (Condenses.refl k [])
  | cons r rest ih =>
      rw [ofRequestsPlainly]
      rcases Request.perform_cases settleTime t r with
        ⟨next, emission, hp⟩ | ⟨e, hfault, he⟩ | ⟨i, e, hi, henter, he⟩
      · obtain ⟨hmirrors, next', plain, hplain, hnext, hcondenses⟩ := h.step hphase hp
        rw [ofRequests_cons_of_performed hp, hplain]
        simp only [result_after]
        exact (ih hmirrors hnext).after hcondenses
      · rw [ofRequests_cons_of_error he, Request.performPlainly_of_fault hfault]
        exact .stopped e
      · -- Both runs have come through the same moves, so this one is illegal in both.
        have henter' : u.enter i = .error e := by
          rw [Tracker.enter_eq_error_iff, hphase]
          exact Tracker.enter_eq_error_iff.mp henter
        rw [ofRequests_cons_of_error he, Request.performPlainly_move hi,
          Request.perform_eq_error hi henter']
        exact .stopped e

/-- Every assignment of a compiled program stores something. -/
theorem Compiler.exists_setting_of_assign (c : Compiler) (path : Toolpath) {p : Program}
    (h : (c.compile path).result = .ok p) {name : String} {value : ProcessValue}
    (hmem : .assign name value ∈ p.instructions) :
    ∃ setting, Setting.ofLiteral? value.literal = some setting := by
  obtain ⟨-, instructions, hrun, rfl⟩ := c.compile_eq_ok path h
  obtain ⟨r, -, hwrites⟩ := Run.exists_writes hrun hmem
  cases hwrites with
  | assign hliteral => exact Setting.exists_ofLiteral? hliteral

/-- Both ways to compile fail for the same reason or succeed together. Then the usual
program leaves out some instructions of the other, and the registers are the same at
every move of both. -/
theorem Compiler.compile_transparent (c : Compiler) (path : Toolpath) :
    match (c.compile path).result, c.compilePlainly path with
    | .error e, .error e' => e = e'
    | .ok p, .ok q =>
        p.name = q.name ∧ p.declarations = q.declarations ∧
          p.instructions.Sublist q.instructions ∧
          (Controller.declared c.config.pathSpeed).moves p.instructions =
            (Controller.declared c.config.pathSpeed).moves q.instructions
    | _, _ => False := by
  rw [compile_result, compilePlainly]
  cases c.frames path with
  | error e => exact rfl
  | ok frames =>
      simp only [Except.bind]
      have hagree : Agree (Controller.declared c.config.pathSpeed) (c.run path frames).result
          (Run.ofRequestsPlainly c.config.settleTime (Tracker.starting c.config.pathSpeed)
            (c.requests path frames)).result :=
        Run.agree (Mirrors.declared c.config.pathSpeed) rfl _
      -- From here on nothing matters of the two runs but that they agree.
      generalize (c.run path frames).result = usual at hagree ⊢
      generalize (Run.ofRequestsPlainly c.config.settleTime (Tracker.starting c.config.pathSpeed)
        (c.requests path frames)).result = plain at hagree ⊢
      cases hagree with
      | stopped e => exact rfl
      | finished h => exact ⟨rfl, rfl, h.sublist, h.moves⟩

end RobotPath
