import RobotPath.Compiler.Basic

/-!
# Runs of requests

Carrying out a request has few outcomes, and all of them are listed here once: as
a relation when the request succeeds, and as its fault or an illegal move when it
does not. Every invariant of a run is a case analysis of that relation. The moves
of a path are legal, so a compilation stops at the first fault or not at all.
-/

namespace RobotPath

namespace Tracker

variable {t next : Tracker}

theorem beq_some_iff {α : Type} [BEq α] {latest : Option α} {value : α} :
    (latest == some value) = true ↔ latest.any (· == value) = true := by
  cases latest <;> exact Iff.rfl

theorem observeVariable?_eq_none {name : String} {value : ProcessValue} :
    t.observeVariable? name value = none ↔ (t.value? name).any (· == value) = true := by
  rw [observeVariable?, ← beq_some_iff]
  split
  next hknown => exact iff_of_true rfl hknown
  next hnews => exact iff_of_false (Option.some_ne_none _) hnews

theorem observeVariable?_eq_some {name : String} {value : ProcessValue} :
    t.observeVariable? name value = some next ↔
      ¬ (t.value? name).any (· == value) = true ∧
        { t with values := t.values.insert name value } = next := by
  rw [observeVariable?, ← beq_some_iff, Option.ite_none_left_eq_some, Option.some_inj]

theorem observePathSpeed?_eq_none {speed : Float} :
    t.observePathSpeed? speed = none ↔ t.pathSpeed.any (· == speed) = true := by
  rw [observePathSpeed?, ← beq_some_iff]
  split
  next hknown => exact iff_of_true rfl hknown
  next hnews => exact iff_of_false (Option.some_ne_none _) hnews

theorem observePathSpeed?_eq_some {speed : Float} :
    t.observePathSpeed? speed = some next ↔
      ¬ t.pathSpeed.any (· == speed) = true ∧ { t with pathSpeed := some speed } = next := by
  rw [observePathSpeed?, ← beq_some_iff, Option.ite_none_left_eq_some, Option.some_inj]

theorem enter_eq_ok_iff {i : Interpolation} :
    t.enter i = .ok next ↔ ∃ phase, t.phase.next? i = some phase ∧ { t with phase } = next := by
  unfold enter
  cases t.phase.next? i with
  | none => simp
  | some phase => simp

theorem enter_eq_error_iff {i : Interpolation} {e : MotionError} :
    t.enter i = .error e ↔ t.phase.next? i = none ∧ .input (.illegalMove i t.phase) = e := by
  unfold enter
  cases t.phase.next? i with
  | none => simp
  | some phase => simp

/-- Whether a move is legal depends on nothing but the phase. -/
theorem enter_of_phase_eq {u : Tracker} {i : Interpolation} (hphase : u.phase = t.phase)
    (h : t.enter i = .ok next) :
    ∃ phase, { t with phase } = next ∧ u.enter i = .ok { u with phase } := by
  obtain ⟨phase, hnext, rfl⟩ := enter_eq_ok_iff.mp h
  exact ⟨phase, rfl, enter_eq_ok_iff.mpr ⟨phase, hphase ▸ hnext, rfl⟩⟩

end Tracker

namespace Request

/-- What one request can do when it succeeds, with all that was checked. -/
inductive Performed (settleTime : Option Float) (t : Tracker) :
    Request → Tracker → Emission → Prop where
  | travel {target next} (henter : t.enter .pointToPoint = .ok next) :
      Performed settleTime t (.travel target) next
        ⟨[.pointToPoint target], t.entering .pointToPoint⟩
  | follow {target next} (henter : t.enter .continuous = .ok next) :
      Performed settleTime t (.follow target) next
        ⟨[.continuous target], t.entering .continuous⟩
  | output {number on} :
      Performed settleTime t (.output number on) t ⟨[.digitalOutput number on], []⟩
  | knownValue {index name value text} (hliteral : value.literal? = .ok text)
      (hobserve : t.observeVariable? name value = none) :
      Performed settleTime t (.assign index name value) t .nothing
  | newValue {index name value text next} (hliteral : value.literal? = .ok text)
      (hobserve : t.observeVariable? name value = some next) :
      Performed settleTime t (.assign index name value) next
        ⟨withPause settleTime (.assign name value), [.variableChanged index name value]⟩
  | knownSpeed {index value speed} (hspeed : Request.speed index value = .ok speed)
      (hobserve : t.observePathSpeed? speed = none) :
      Performed settleTime t (.pathSpeed index value) t .nothing
  | newSpeed {index value speed next} (hspeed : Request.speed index value = .ok speed)
      (hobserve : t.observePathSpeed? speed = some next) :
      Performed settleTime t (.pathSpeed index value) next
        ⟨[.pathSpeed speed], [.pathSpeedChanged index speed]⟩

/-- Which instructions a request can write. -/
inductive Writes (settleTime : Option Float) : Request → Instruction → Prop where
  | travel (target) : Writes settleTime (.travel target) (.pointToPoint target)
  | follow (target) : Writes settleTime (.follow target) (.continuous target)
  | output (number on) : Writes settleTime (.output number on) (.digitalOutput number on)
  | assign {index name value text} (hliteral : value.literal? = .ok text) :
      Writes settleTime (.assign index name value) (.assign name value)
  | pause {index name value seconds} (hsettle : settleTime = some seconds) :
      Writes settleTime (.assign index name value) (.wait seconds)
  | pathSpeed {index value speed} (hspeed : Request.speed index value = .ok speed) :
      Writes settleTime (.pathSpeed index value) (.pathSpeed speed)

/-- What is wrong with the data of a request, whatever has been written. -/
def fault? : Request → Option MotionError
  | .assign _ _ value => match value.literal? with
      | .error e => some e
      | .ok _ => none
  | .pathSpeed index value => match Request.speed index value with
      | .error e => some e
      | .ok _ => none
  | _ => none

/-- How a request moves the robot, if it does. -/
def interpolation? : Request → Option Interpolation
  | .travel _ => some .pointToPoint
  | .follow _ => some .continuous
  | _ => none

variable {settleTime : Option Float} {t next : Tracker} {r : Request} {emission : Emission}

theorem perform_eq_ok (h : Performed settleTime t r next emission) :
    r.perform settleTime t = .ok (next, emission) := by
  cases h with
  | travel henter => rw [perform, henter]; rfl
  | follow henter => rw [perform, henter]; rfl
  | output => rfl
  | knownValue hliteral hobserve => rw [perform, Instruction.checkedAssign, hliteral, hobserve]; rfl
  | newValue hliteral hobserve => rw [perform, Instruction.checkedAssign, hliteral, hobserve]; rfl
  | knownSpeed hspeed hobserve => rw [perform, hspeed]; simp only [bind, Except.bind, hobserve]; rfl
  | newSpeed hspeed hobserve => rw [perform, hspeed]; simp only [bind, Except.bind, hobserve]; rfl

theorem perform_eq_error {i : Interpolation} {e : MotionError} (hmove : r.interpolation? = some i)
    (henter : t.enter i = .error e) : r.perform settleTime t = .error e := by
  cases r with
  | travel | follow =>
      cases hmove
      rw [perform, henter]
      rfl
  | output | assign | pathSpeed => cases hmove

/-- A request succeeds in one of the ways listed, or has a fault, or is an illegal
move. -/
theorem perform_cases (settleTime : Option Float) (t : Tracker) (r : Request) :
    (∃ next emission, Performed settleTime t r next emission) ∨
      (∃ e, r.fault? = some e ∧ r.perform settleTime t = .error e) ∨
      ∃ i e, r.interpolation? = some i ∧ t.enter i = .error e ∧
        r.perform settleTime t = .error e := by
  cases r with
  | travel target =>
      cases henter : t.enter .pointToPoint with
      | ok next => exact .inl ⟨_, _, .travel henter⟩
      | error e => exact .inr (.inr ⟨_, e, rfl, henter, perform_eq_error rfl henter⟩)
  | follow target =>
      cases henter : t.enter .continuous with
      | ok next => exact .inl ⟨_, _, .follow henter⟩
      | error e => exact .inr (.inr ⟨_, e, rfl, henter, perform_eq_error rfl henter⟩)
  | output number on => exact .inl ⟨_, _, .output⟩
  | assign index name value =>
      cases hliteral : value.literal? with
      | error e =>
          refine .inr (.inl ⟨e, by rw [fault?, hliteral], ?_⟩)
          rw [perform, Instruction.checkedAssign, hliteral]
          rfl
      | ok text =>
          cases hobserve : t.observeVariable? name value with
          | none => exact .inl ⟨_, _, .knownValue hliteral hobserve⟩
          | some next => exact .inl ⟨_, _, .newValue hliteral hobserve⟩
  | pathSpeed index value =>
      cases hspeed : Request.speed index value with
      | error e =>
          refine .inr (.inl ⟨e, by rw [fault?, hspeed], ?_⟩)
          rw [perform, hspeed]
          rfl
      | ok speed =>
          cases hobserve : t.observePathSpeed? speed with
          | none => exact .inl ⟨_, _, .knownSpeed hspeed hobserve⟩
          | some next => exact .inl ⟨_, _, .newSpeed hspeed hobserve⟩

theorem performed_iff :
    Performed settleTime t r next emission ↔ r.perform settleTime t = .ok (next, emission) := by
  refine ⟨perform_eq_ok, fun h => ?_⟩
  rcases perform_cases settleTime t r with ⟨next', emission', hp⟩ | ⟨e, -, he⟩ | ⟨_, e, -, -, he⟩
  · rw [perform_eq_ok hp] at h
    cases h
    exact hp
  · rw [he] at h
    cases h
  · rw [he] at h
    cases h

theorem number?_of_speed {index : Nat} {value : ProcessValue} {speed : Float}
    (h : Request.speed index value = .ok speed) :
    value.number? = some speed ∧ Config.isSpeed speed = true := by
  unfold Request.speed at h
  split at h
  next hfilter =>
    cases h
    exact Option.filter_eq_some_iff.mp hfilter
  next => cases h

theorem Performed.writes (h : Performed settleTime t r next emission) {i : Instruction}
    (hi : i ∈ emission.instructions) : r.Writes settleTime i := by
  cases h with
  | travel | follow | output =>
      obtain rfl := List.mem_singleton.mp hi
      constructor
  | knownValue | knownSpeed => cases hi
  | newValue hliteral =>
      rw [withPause, List.mem_cons, Option.mem_toList, Option.map_eq_some_iff] at hi
      rcases hi with rfl | ⟨seconds, hsettle, rfl⟩
      · exact .assign hliteral
      · exact .pause hsettle
  | newSpeed hspeed =>
      obtain rfl := List.mem_singleton.mp hi
      exact .pathSpeed hspeed

/-- What succeeds has no fault. -/
theorem Performed.fault?_eq_none (h : Performed settleTime t r next emission) :
    r.fault? = none := by
  cases h with
  | travel | follow | output => rfl
  | knownValue hliteral | newValue hliteral => rw [fault?, hliteral]
  | knownSpeed hspeed | newSpeed hspeed => rw [fault?, hspeed]

end Request

namespace Run

variable {settleTime : Option Float} {t next : Tracker} {r : Request} {emission : Emission}

/-- The instructions of a run, unless it stopped before its end. -/
def result (run : Run) : Except MotionError (List Instruction) :=
  match run.failure with
  | some e => .error e
  | none => .ok run.emission.instructions

theorem result_eq_error_iff {run : Run} {e : MotionError} :
    run.result = .error e ↔ run.failure = some e := by
  unfold result
  cases run.failure <;> simp

theorem result_eq_ok_iff {run : Run} {instructions : List Instruction} :
    run.result = .ok instructions ↔
      run.failure = none ∧ run.emission.instructions = instructions := by
  unfold result
  cases run.failure <;> simp

theorem ofRequests_cons_of_performed (h : r.Performed settleTime t next emission)
    (rest : List Request) :
    ofRequests settleTime t (r :: rest) = (ofRequests settleTime next rest).after emission := by
  rw [ofRequests, Request.perform_eq_ok h]

theorem ofRequests_cons_of_error {e : MotionError} (h : r.perform settleTime t = .error e)
    (rest : List Request) : ofRequests settleTime t (r :: rest) = ⟨.nothing, some e⟩ := by
  rw [ofRequests, h]

end Run

namespace Request

/-- The phase after a request, if the request is legal in this one. -/
def phaseAfter? (phase : Phase) (r : Request) : Option Phase :=
  match r.interpolation? with
  | some i => phase.next? i
  | none => some phase

variable {settleTime : Option Float} {t next : Tracker} {r : Request} {emission : Emission}

/-- Only moves change the phase, and each as the phases prescribe. -/
theorem Performed.phaseAfter? (h : r.Performed settleTime t next emission) :
    r.phaseAfter? t.phase = some next.phase := by
  cases h with
  | travel henter | follow henter =>
      obtain ⟨phase, hphase, rfl⟩ := Tracker.enter_eq_ok_iff.mp henter
      exact hphase
  | output | knownValue | knownSpeed => rfl
  | newValue _ hobserve =>
      obtain ⟨-, rfl⟩ := Tracker.observeVariable?_eq_some.mp hobserve
      rfl
  | newSpeed _ hobserve =>
      obtain ⟨-, rfl⟩ := Tracker.observePathSpeed?_eq_some.mp hobserve
      rfl

/-- A legal request fails only by its fault. -/
theorem performed_or_fault (settleTime : Option Float) {phase : Phase}
    (hlegal : r.phaseAfter? t.phase = some phase) :
    (∃ next emission, r.Performed settleTime t next emission) ∨
      ∃ e, r.fault? = some e ∧ r.perform settleTime t = .error e := by
  rcases perform_cases settleTime t r with hp | hfault | ⟨i, e, hi, henter, -⟩
  · exact .inl hp
  · exact .inr hfault
  · rw [Request.phaseAfter?, hi] at hlegal
    rw [Tracker.enter_eq_ok_iff.mpr ⟨phase, hlegal, rfl⟩] at henter
    cases henter

/-- Requests that move nothing leave the phase alone. -/
theorem foldlM_phaseAfter?_of_still {rs : List Request} (h : ∀ r ∈ rs, r.interpolation? = none)
    (phase : Phase) : rs.foldlM phaseAfter? phase = some phase := by
  induction rs with
  | nil => rfl
  | cons r rest ih =>
      rw [List.foldlM_cons, phaseAfter?, h r List.mem_cons_self, Option.bind_eq_bind,
        Option.bind_some]
      exact ih fun later hlater => h later (List.mem_cons_of_mem r hlater)

/-- Every move of a list of requests is legal where it comes. -/
def Legal (phase : Phase) (rs : List Request) : Prop :=
  (rs.foldlM phaseAfter? phase).isSome

theorem legal_cons {phase : Phase} {rest : List Request} :
    Legal phase (r :: rest) ↔ ∃ after, r.phaseAfter? phase = some after ∧ Legal after rest := by
  unfold Legal
  rw [List.foldlM_cons]
  cases r.phaseAfter? phase with
  | none => simp
  | some after => simp

/-- What follows a request that succeeds is legal from there. -/
theorem Performed.legal_rest (h : r.Performed settleTime t next emission) {rest : List Request}
    (hlegal : Legal t.phase (r :: rest)) : Legal next.phase rest := by
  obtain ⟨phase, hphase, hrest⟩ := legal_cons.mp hlegal
  rw [h.phaseAfter?, Option.some_inj] at hphase
  exact hphase ▸ hrest

end Request

namespace Run

variable {settleTime : Option Float} {t : Tracker} {r : Request} {rs : List Request}

theorem result_after (run : Run) (before : Emission) :
    (run.after before).result = run.result.map (before.instructions ++ ·) := by
  unfold result
  cases hfailure : run.failure <;> simp only [after, hfailure] <;> rfl

/-- A run that reaches its end starts with a request that succeeds. -/
theorem result_cons_eq_ok {rest : List Request} {instructions : List Instruction}
    (h : (ofRequests settleTime t (r :: rest)).result = .ok instructions) :
    ∃ next emission later, r.Performed settleTime t next emission ∧
      (ofRequests settleTime next rest).result = .ok later ∧
      instructions = emission.instructions ++ later := by
  rcases Request.perform_cases settleTime t r with
    ⟨next, emission, hp⟩ | ⟨e, -, he⟩ | ⟨_, e, -, -, he⟩
  · rw [ofRequests_cons_of_performed hp, result_after] at h
    cases hrest : (ofRequests settleTime next rest).result with
    | error e =>
        rw [hrest] at h
        cases h
    | ok later =>
        rw [hrest] at h
        cases h
        exact ⟨next, emission, later, hp, hrest, rfl⟩
  · rw [ofRequests_cons_of_error he] at h
    cases h
  · rw [ofRequests_cons_of_error he] at h
    cases h

/-- Every instruction of a run is written by one of its requests. -/
theorem exists_writes {instructions : List Instruction}
    (h : (ofRequests settleTime t rs).result = .ok instructions) {i : Instruction}
    (hi : i ∈ instructions) : ∃ r ∈ rs, r.Writes settleTime i := by
  induction rs generalizing t instructions with
  | nil =>
      cases h
      cases hi
  | cons r rest ih =>
      obtain ⟨next, emission, later, hp, hrest, rfl⟩ := result_cons_eq_ok h
      cases List.mem_append.mp hi with
      | inl hhere => exact ⟨r, List.mem_cons_self, hp.writes hhere⟩
      | inr hlater =>
          obtain ⟨found, hfound, hwrites⟩ := ih hrest hlater
          exact ⟨found, List.mem_cons_of_mem r hfound, hwrites⟩

/-- Every request of a run that reaches its end succeeds somewhere in it. -/
theorem exists_performed {instructions : List Instruction}
    (h : (ofRequests settleTime t rs).result = .ok instructions) (hr : r ∈ rs) :
    ∃ before next emission, r.Performed settleTime before next emission := by
  induction rs generalizing t instructions with
  | nil => cases hr
  | cons first rest ih =>
      obtain ⟨next, emission, later, hp, hrest, rfl⟩ := result_cons_eq_ok h
      cases List.mem_cons.mp hr with
      | inl heq => exact heq ▸ ⟨t, next, emission, hp⟩
      | inr hlater => exact ih hrest hlater

/-- A run whose moves are legal stops at the first fault of its requests. -/
theorem failure_ofRequests (hlegal : Request.Legal t.phase rs) :
    (ofRequests settleTime t rs).failure = rs.findSome? Request.fault? := by
  induction rs generalizing t with
  | nil => rfl
  | cons r rest ih =>
      obtain ⟨phase, hphase, -⟩ := Request.legal_cons.mp hlegal
      rw [List.findSome?_cons]
      -- The request is legal, so nothing but its data can stop the run here.
      rcases Request.performed_or_fault settleTime hphase with
        ⟨next, emission, hp⟩ | ⟨e, hfault, he⟩
      · rw [ofRequests_cons_of_performed hp, hp.fault?_eq_none]
        exact ih (hp.legal_rest hlegal)
      · rw [ofRequests_cons_of_error he, hfault]

/-- What came of each attempt to make a move, up to where the run stopped. -/
def attempts (settleTime : Option Float) :
    Tracker → List Request → List (Except MotionError Tracker)
  | _, [] => []
  | t, r :: rest =>
      (r.interpolation?.map t.enter).toList ++
        match r.perform settleTime t with
        | .error _ => []
        | .ok (next, _) => attempts settleTime next rest

/-- A run whose moves are legal makes all of them that it comes to. -/
theorem isOk_of_mem_attempts (hlegal : Request.Legal t.phase rs)
    {attempt : Except MotionError Tracker} (h : attempt ∈ attempts settleTime t rs) :
    attempt.isOk := by
  induction rs generalizing t with
  | nil => cases h
  | cons r rest ih =>
      obtain ⟨phase, hphase, -⟩ := Request.legal_cons.mp hlegal
      rw [attempts, List.mem_append] at h
      cases h with
      | inl hhere =>
          rw [Option.mem_toList, Option.map_eq_some_iff] at hhere
          obtain ⟨i, hi, rfl⟩ := hhere
          rw [Request.phaseAfter?, hi] at hphase
          rw [Tracker.enter_eq_ok_iff.mpr ⟨phase, hphase, rfl⟩]
          rfl
      | inr hlater =>
          split at hlater
          next => cases hlater
          next hperform => exact ih ((Request.performed_iff.mpr hperform).legal_rest hlegal) hlater

end Run

namespace Compiler

variable (c : Compiler) (path : Toolpath)

theorem still_of_mem_settings {index : Nat} {r : Request} (h : r ∈ c.settings path index) :
    r.interpolation? = none := by
  rw [settings, List.mem_append, List.mem_filterMap, Option.mem_toList,
    Option.map_eq_some_iff] at h
  rcases h with ⟨⟨name, profile⟩, -, hassign⟩ | ⟨value, -, rfl⟩
  · obtain ⟨value, -, rfl⟩ := Option.map_eq_some_iff.mp hassign
    rfl
  · rfl

theorem still_of_mem_processOutput {on : Bool} {r : Request} (h : r ∈ c.processOutput on) :
    r.interpolation? = none := by
  rw [processOutput, Option.mem_toList, Option.map_eq_some_iff] at h
  obtain ⟨number, -, rfl⟩ := h
  rfl

theorem approach_of_pos (frame : Frame) {index : Nat} (h : 0 < index) :
    c.approach path frame index = c.settings path index ++ [.follow frame] := by
  cases index with
  | zero => cases h
  | succ index => rfl

/-- Once the robot has reached the path, it can follow it to the end. -/
theorem phaseAfter?_path (frames : List Frame) {start : Nat} (hstart : 0 < start) {phase : Phase}
    (hphase : phase = .approach ∨ phase = .path) :
    ∃ last, (last = .approach ∨ last = .path) ∧
      ((frames.zipIdx start).flatMap fun (frame, index) => c.approach path frame index).foldlM
        Request.phaseAfter? phase = some last := by
  induction frames generalizing start phase with
  | nil => exact ⟨phase, hphase, rfl⟩
  | cons frame rest ih =>
      obtain ⟨last, hlast, hrest⟩ := ih (Nat.succ_pos start) (.inr rfl)
      refine ⟨last, hlast, ?_⟩
      -- The settings in front of the move leave the phase to it.
      have hfollow : (Request.follow frame).phaseAfter? phase = some .path := by
        cases hphase with
        | inl h => rw [h]; rfl
        | inr h => rw [h]; rfl
      simp only [List.zipIdx_cons, List.flatMap_cons, List.foldlM_append,
        c.approach_of_pos path frame hstart,
        Request.foldlM_phaseAfter?_of_still (fun _ => c.still_of_mem_settings path),
        Option.bind_eq_bind, Option.bind_some, List.foldlM_cons, List.foldlM_nil, hfollow,
        Option.pure_def]
      exact hrest

/-- The moves of a path are legal, however many frames it has. -/
theorem legal_requests (frames : List Frame) :
    Request.Legal .notStarted (c.requests path frames) := by
  have hpath : ∃ last, (last = .approach ∨ last = .path) ∧
      (frames.zipIdx.flatMap fun (frame, index) => c.approach path frame index).foldlM
        Request.phaseAfter? .approach = some last := by
    cases frames with
    | nil => exact ⟨.approach, .inl rfl, rfl⟩
    | cons frame rest => exact c.phaseAfter?_path path rest Nat.one_pos (.inl rfl)
  obtain ⟨last, hlast, hpath⟩ := hpath
  have hhome : (Request.travel c.config.home).phaseAfter? .notStarted = some .approach := rfl
  simp only [Request.Legal, requests, List.foldlM_append, List.foldlM_cons, List.foldlM_nil, hhome,
    Option.bind_eq_bind, Option.bind_some, Option.pure_def, hpath,
    Request.foldlM_phaseAfter?_of_still (fun _ => c.still_of_mem_processOutput)]
  cases hlast with
  | inl h => rw [h]; rfl
  | inr h => rw [h]; rfl

/-- A compilation gives the program of a run, or what stopped it before or during
the run. -/
theorem compile_result :
    (c.compile path).result = (c.frames path).bind fun frames =>
      (c.run path frames).result.map c.program := by
  unfold compile
  cases c.frames path with
  | error e => rfl
  | ok frames =>
      simp only [Except.bind, Run.result]
      cases (c.run path frames).failure <;> rfl

end Compiler

end RobotPath
