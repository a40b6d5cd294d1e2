import RobotPath.Proofs.Compiler.Log
import RobotPath.Proofs.Decimal.Whole

/-!
# Whole numbers and decimals

A whole number can be given as an integer or as a decimal, value by value. As long as
doubles hold the integers exactly, a program does not tell which it was, and a compilation
that fails does so at the same waypoint and for the same kind of reason. The trackers of
two such compilations may remember one value in two spellings, and no comparison that they
make can tell these apart.
-/

namespace RobotPath

namespace ProcessValue

/-- A value that a double holds, if it is an integer. -/
def IsExact : ProcessValue → Prop
  | .integer value => value.toInt.natAbs ≤ 2 ^ 53
  | .switch _ | .decimal _ => True

/-- One value in two spellings: as it is, or with the decimal in place of an integer. -/
inductive Respelled : ProcessValue → ProcessValue → Prop where
  | same {value : ProcessValue} (h : value.IsExact) : Respelled value value
  | decimal {value : Int64} (h : (integer value).IsExact) :
      Respelled (.integer value) (.decimal (nearest value))

variable {a a' b b' : ProcessValue}

/-- Integers that doubles hold compare as integers the way they compare as doubles. -/
theorem beq_nearest {n m : Int64} (hn : (integer n).IsExact) (hm : (integer m).IsExact) :
    (n == m) = (nearest n == nearest m) := by
  rw [Bool.eq_iff_iff, beq_iff_eq, nearest, nearest, Reading.beq_nearest_iff hn hm, Int64.toInt_inj]

theorem Respelled.number?_eq (h : a.Respelled a') : a.number? = a'.number? := by
  cases h <;> rfl

theorem Respelled.literal_eq (h : a.Respelled a') : a.literal = a'.literal := by
  cases h <;> rfl

theorem Respelled.literal?_eq (h : a.Respelled a') : a.literal? = a'.literal? := by
  cases h with
  | same => rfl
  | @decimal value h =>
      change _ = if (nearest value).isFinite then _ else _
      rw [if_pos (Reading.isFinite_nearest value)]
      rfl

/-- Comparison does not see how its values are spelled. -/
theorem Respelled.beq_eq (ha : a.Respelled a') (hb : b.Respelled b') : (a == b) = (a' == b') := by
  cases ha with
  | same ha =>
      cases hb with
      | same => rfl
      | @decimal m hm =>
          cases a with
          | switch | decimal => rfl
          | integer n => exact beq_nearest ha hm
  | @decimal n hn =>
      cases hb with
      | decimal hm => exact beq_nearest hn hm
      | same hb =>
          cases b with
          | switch | decimal => rfl
          | integer m => exact beq_nearest hn hb

end ProcessValue

/-- Profiles with the same gaps, and at each index one value in two spellings. -/
def Profile.Respelled (p q : Profile) : Prop :=
  List.Forall₂ (Option.Rel ProcessValue.Respelled) p.values q.values

/-- Entries of the same names, in the same order, whose values are related. -/
abbrev EntriesAlike {α β : Type} (R : α → β → Prop) (a : List (String × α))
    (b : List (String × β)) : Prop :=
  List.Forall₂ (fun entry entry' => entry.1 = entry'.1 ∧ R entry.2 entry'.2) a b

/-- Two paths that differ in how the values of their profiles are spelled. All of their
integers are such that doubles hold them. -/
structure Toolpath.Respelled (a b : Toolpath) : Prop where
  waypoints : a.waypoints = b.waypoints
  speed : Option.Rel Profile.Respelled a.speed b.speed
  profiles : EntriesAlike Profile.Respelled a.profiles.entries b.profiles.entries

/-- Requests for the same, with values in two spellings. -/
inductive Request.Respelled : Request → Request → Prop where
  | travel (target) : Respelled (.travel target) (.travel target)
  | follow (target) : Respelled (.follow target) (.follow target)
  | output (number on) : Respelled (.output number on) (.output number on)
  | assign (index name) {value value'} (h : value.Respelled value') :
      Respelled (.assign index name value) (.assign index name value')
  | pathSpeed (index) {value value'} (h : value.Respelled value') :
      Respelled (.pathSpeed index value) (.pathSpeed index value')

/-- Instructions that differ in the spelling of a value that they assign. -/
inductive Instruction.Respelled : Instruction → Instruction → Prop where
  | same (i) : Respelled i i
  | assign (name) {value value'} (h : value.Respelled value') :
      Respelled (.assign name value) (.assign name value')

/-- Failures that differ in the spelling of a value that they name. -/
inductive MotionError.Respelled : MotionError → MotionError → Prop where
  | same (e) : Respelled e e
  | pathSpeed (index) {value value'} (h : value.Respelled value') :
      Respelled (.unsupportedValue (.pathSpeed index value))
        (.unsupportedValue (.pathSpeed index value'))

/-- The waypoint whose frame is not finite, when a failure is about one. -/
def MotionError.waypoint? : MotionError → Option Nat
  | .input (.waypointNotFinite index _) => some index
  | _ => none

/-- Trackers that remember the same values, though maybe in two spellings. -/
structure Tracker.Respelled (t u : Tracker) : Prop where
  values : ∀ name, Option.Rel ProcessValue.Respelled (t.value? name) (u.value? name)
  pathSpeed : t.pathSpeed = u.pathSpeed
  phase : t.phase = u.phase

/-- What comes of two requests: both succeed and write the same, or both fail alike. -/
inductive Request.Outcomes :
    Except MotionError (Tracker × Emission) → Except MotionError (Tracker × Emission) → Prop where
  | ok {next next' emission emission'} (htracker : Tracker.Respelled next next')
      (hinstructions : List.Forall₂ Instruction.Respelled emission.instructions
        emission'.instructions) :
      Outcomes (.ok (next, emission)) (.ok (next', emission'))
  | error {e e'} (h : MotionError.Respelled e e') : Outcomes (.error e) (.error e')

/-! ## One request -/

theorem Instruction.Respelled.text_eq {i j : Instruction} (h : i.Respelled j) :
    i.text = j.text := by
  cases h with
  | same => rfl
  | assign name h => rw [text, h.literal_eq, text]

theorem MotionError.Respelled.kind_eq {e e' : MotionError} (h : e.Respelled e') :
    e.kind = e'.kind := by
  cases h <;> rfl

theorem forall₂_same (instructions : List Instruction) :
    List.Forall₂ Instruction.Respelled instructions instructions :=
  List.forall₂_same.mpr fun i _ => .same i

theorem forall₂_withPause (settleTime : Option Float) (name : String) {value value' : ProcessValue}
    (h : value.Respelled value') :
    List.Forall₂ Instruction.Respelled (Request.withPause settleTime (.assign name value))
      (Request.withPause settleTime (.assign name value')) :=
  .cons (.assign name h) (forall₂_same _)

namespace Tracker.Respelled

variable {t u : Tracker} {value value' : ProcessValue}

theorem starting (pathSpeed : Float) :
    (Tracker.starting pathSpeed).Respelled (Tracker.starting pathSpeed) :=
  ⟨fun _ => .none, rfl, rfl⟩

/-- What is news to one tracker is news to the other. -/
theorem any_eq (h : t.Respelled u) (name : String) (hvalue : value.Respelled value') :
    (t.value? name).any (· == value) = (u.value? name).any (· == value') := by
  have hlatest := h.values name
  generalize t.value? name = latest, u.value? name = latest' at hlatest
  cases hlatest with
  | none => rfl
  | some hlatest => exact hlatest.beq_eq hvalue

theorem insert (h : t.Respelled u) (name : String) (hvalue : value.Respelled value') :
    { t with values := t.values.insert name value }.Respelled
      { u with values := u.values.insert name value' } where
  values key := by
    simp only [Tracker.value?, NameMap.find?_insert]
    split
    · exact .some hvalue
    · exact h.values key
  pathSpeed := h.pathSpeed
  phase := h.phase

theorem withPathSpeed (h : t.Respelled u) (speed : Float) :
    { t with pathSpeed := some speed }.Respelled { u with pathSpeed := some speed } :=
  ⟨h.values, rfl, h.phase⟩

/-- A move that is legal after one of them is legal after the other. -/
theorem enter (h : t.Respelled u) (i : Interpolation) (written : List Instruction)
    (events events' : List Event) :
    Request.Outcomes ((t.enter i).map (·, ⟨written, events⟩))
      ((u.enter i).map (·, ⟨written, events'⟩)) := by
  unfold Tracker.enter
  rw [h.phase]
  cases u.phase.next? i with
  | none => exact .error (.same _)
  | some phase => exact .ok ⟨h.values, h.pathSpeed, rfl⟩ (forall₂_same _)

end Tracker.Respelled

/-- Two spellings stand for one path speed, or both for none. -/
theorem ProcessValue.Respelled.speed_cases (index : Nat) {value value' : ProcessValue}
    (h : value.Respelled value') :
    (∃ speed, Request.speed index value = .ok speed ∧ Request.speed index value' = .ok speed) ∨
      Request.speed index value = .error (.unsupportedValue (.pathSpeed index value)) ∧
        Request.speed index value' = .error (.unsupportedValue (.pathSpeed index value')) := by
  unfold Request.speed
  rw [h.number?_eq]
  cases value'.number?.filter Config.isSpeed with
  | none => exact .inr ⟨rfl, rfl⟩
  | some speed => exact .inl ⟨speed, rfl, rfl⟩

section runs

variable {settleTime : Option Float} {t u : Tracker} {r s : Request} {rs ss : List Request}

/-- Two requests for the same come to the same, whichever spelling was remembered. -/
theorem Request.Respelled.perform (h : r.Respelled s) (ht : t.Respelled u) :
    Outcomes (r.perform settleTime t) (s.perform settleTime u) := by
  cases h with
  | travel target => exact ht.enter .pointToPoint _ _ _
  | follow target => exact ht.enter .continuous _ _ _
  | output number on => exact .ok ht (forall₂_same _)
  | @assign index name value value' hvalue =>
      have hliteral := hvalue.literal?_eq
      cases htext : value.literal? with
      | error e =>
          rw [htext] at hliteral
          rw [Request.perform, Request.perform, Instruction.checkedAssign,
            Instruction.checkedAssign, htext, ← hliteral]
          exact .error (.same e)
      | ok text =>
          rw [htext] at hliteral
          cases hobserve : t.observeVariable? name value with
          | none =>
              have hknown := Tracker.observeVariable?_eq_none.mp hobserve
              rw [ht.any_eq name hvalue, ← Tracker.observeVariable?_eq_none] at hknown
              rw [perform_eq_ok (.knownValue htext hobserve),
                perform_eq_ok (.knownValue hliteral.symm hknown)]
              exact .ok ht .nil
          | some next =>
              obtain ⟨hnews, rfl⟩ := Tracker.observeVariable?_eq_some.mp hobserve
              rw [ht.any_eq name hvalue] at hnews
              rw [perform_eq_ok (.newValue htext hobserve), perform_eq_ok
                (.newValue hliteral.symm (Tracker.observeVariable?_eq_some.mpr ⟨hnews, rfl⟩))]
              exact .ok (ht.insert name hvalue) (forall₂_withPause settleTime name hvalue)
  | @pathSpeed index value value' hvalue =>
      rcases hvalue.speed_cases index with ⟨speed, hspeed, hspeed'⟩ | ⟨hspeed, hspeed'⟩
      · cases hobserve : t.observePathSpeed? speed with
        | none =>
            have hknown := Tracker.observePathSpeed?_eq_none.mp hobserve
            rw [ht.pathSpeed, ← Tracker.observePathSpeed?_eq_none] at hknown
            rw [perform_eq_ok (.knownSpeed hspeed hobserve),
              perform_eq_ok (.knownSpeed hspeed' hknown)]
            exact .ok ht .nil
        | some next =>
            obtain ⟨hnews, rfl⟩ := Tracker.observePathSpeed?_eq_some.mp hobserve
            rw [ht.pathSpeed] at hnews
            rw [perform_eq_ok (.newSpeed hspeed hobserve), perform_eq_ok
              (.newSpeed hspeed' (Tracker.observePathSpeed?_eq_some.mpr ⟨hnews, rfl⟩))]
            exact .ok (ht.withPathSpeed speed) (forall₂_same _)
      · rw [Request.perform, Request.perform, hspeed, hspeed']
        exact .error (.pathSpeed index hvalue)

theorem Request.Respelled.index?_eq (h : r.Respelled s) : r.index? = s.index? := by
  cases h <;> rfl

theorem Request.bind_index?_eq {r? s? : Option Request}
    (h : Option.Rel Request.Respelled r? s?) :
    r?.bind index? = s?.bind index? := by
  cases h with
  | none => rfl
  | some h => exact h.index?_eq

/-- The request that a run stops at, if it stops before its end. -/
def Run.stopsAt? (settleTime : Option Float) : Tracker → List Request → Option Request
  | _, [] => none
  | t, r :: rest =>
      match r.perform settleTime t with
      | .error _ => some r
      | .ok (next, _) => stopsAt? settleTime next rest

/-- A run whose moves are legal and that fails stops at the request with the fault. -/
theorem Run.exists_stopsAt? {e : MotionError} (hlegal : Request.Legal t.phase rs)
    (hfailure : (ofRequests settleTime t rs).failure = some e) :
    ∃ r, stopsAt? settleTime t rs = some r ∧ r.fault? = some e := by
  induction rs generalizing t with
  | nil => cases hfailure
  | cons r rest ih =>
      obtain ⟨phase, hphase, -⟩ := Request.legal_cons.mp hlegal
      rcases Request.performed_or_fault settleTime hphase with
        ⟨next, emission, hp⟩ | ⟨e', hfault, he⟩
      · rw [ofRequests_cons_of_performed hp] at hfailure
        rw [stopsAt?, Request.perform_eq_ok hp]
        exact ih (hp.legal_rest hlegal) hfailure
      · rw [ofRequests_cons_of_error he] at hfailure
        cases hfailure
        exact ⟨r, by rw [stopsAt?, he], hfault⟩

/-- What two runs come to whose requests are for the same. -/
structure Run.Respelled (a b : Run) : Prop where
  instructions : List.Forall₂ Instruction.Respelled a.emission.instructions b.emission.instructions
  failure : Option.Rel MotionError.Respelled a.failure b.failure

theorem Run.Respelled.result_cases {a b : Run} (h : a.Respelled b) :
    (∃ instructions instructions', a.result = .ok instructions ∧ b.result = .ok instructions' ∧
        List.Forall₂ Instruction.Respelled instructions instructions') ∨
      ∃ e e', a.result = .error e ∧ b.result = .error e' ∧ e.Respelled e' := by
  have hfailure := h.failure
  unfold Run.result
  generalize a.failure = failure, b.failure = failure' at hfailure
  cases hfailure with
  | none => exact .inl ⟨_, _, rfl, rfl, h.instructions⟩
  | some h => exact .inr ⟨_, _, rfl, rfl, h⟩

/-- Request by request, two runs come to the same, and stop at the same request if they
stop. -/
theorem Run.respelled_ofRequests (hrs : List.Forall₂ Request.Respelled rs ss)
    (ht : t.Respelled u) :
    (ofRequests settleTime t rs).Respelled (ofRequests settleTime u ss) ∧
      Option.Rel Request.Respelled (stopsAt? settleTime t rs) (stopsAt? settleTime u ss) := by
  induction hrs generalizing t u with
  | nil => exact ⟨⟨.nil, .none⟩, .none⟩
  | @cons r s rest rest' hr _ ih =>
      have houtcomes : Request.Outcomes (r.perform settleTime t) (s.perform settleTime u) :=
        hr.perform ht
      rw [ofRequests, ofRequests, stopsAt?, stopsAt?]
      generalize r.perform settleTime t = outcome, s.perform settleTime u = outcome' at houtcomes
      cases houtcomes with
      | error he => exact ⟨⟨.nil, .some he⟩, .some hr⟩
      | ok hnext hinstructions =>
          obtain ⟨hrun, hstop⟩ := ih hnext
          exact ⟨⟨List.rel_append hinstructions hrun.instructions, hrun.failure⟩, hstop⟩

end runs

/-! ## One path -/

section entries

variable {α β : Type} {R : α → β → Prop}

theorem EntriesAlike.lookup {a : List (String × α)} {b : List (String × β)}
    (h : EntriesAlike R a b) (name : String) : Option.Rel R (a.lookup name) (b.lookup name) := by
  induction h with
  | nil => exact .none
  | @cons entry entry' _ _ hentry _ ih =>
      obtain ⟨key, value⟩ := entry
      obtain ⟨key', value'⟩ := entry'
      obtain ⟨rfl, hvalue⟩ := hentry
      rw [NameMap.lookup_entry_cons, NameMap.lookup_entry_cons]
      split
      · exact .some hvalue
      · exact ih

/-- Maps with the same names are brought into the same order. -/
theorem Config.entriesAlike_ordered (c : Config) {m : NameMap α} {m' : NameMap β}
    (h : EntriesAlike R m.entries m'.entries) : EntriesAlike R (c.ordered m) (c.ordered m') := by
  refine List.rel_append ?_ ?_
  · refine List.rel_filterMap ?_ (List.forall₂_same.mpr fun _ _ => rfl)
    rintro name _ rfl
    change Option.Rel _ ((m.find? name).map (name, ·)) ((m'.find? name).map (name, ·))
    have hfound : Option.Rel R (m.find? name) (m'.find? name) := h.lookup name
    generalize m.find? name = found, m'.find? name = found' at hfound
    cases hfound with
    | none => exact .none
    | some hvalue => exact .some ⟨rfl, hvalue⟩
  · refine List.rel_filter ?_ h
    rintro ⟨name, value⟩ ⟨_, value'⟩ ⟨rfl, -⟩
    exact Iff.rfl

end entries

theorem Profile.Respelled.get? {p q : Profile} (h : p.Respelled q) (index : Nat) :
    Option.Rel ProcessValue.Respelled (p.get? index) (q.get? index) := by
  unfold Profile.get?
  rw [Profile.Respelled] at h
  generalize p.values = values, q.values = values' at h
  induction h generalizing index with
  | nil => exact .none
  | cons hvalue _ ih =>
      cases index with
      | zero => simpa using hvalue
      | succ index => simpa using ih index

namespace Compiler

variable (c : Compiler) {path path' : Toolpath}

/-- The waypoint that a compilation stops at: one that has no finite frame, or one whose
values cannot be written. It may also stop before the first waypoint, or not at all. -/
def stopsAt? (path : Toolpath) : Option Nat :=
  match c.frames path with
  | .ok frames =>
      (Run.stopsAt? c.config.settleTime (Tracker.starting c.config.pathSpeed)
        (c.requests path frames)).bind Request.index?
  | .error e => e.waypoint?

theorem respelled_settings (h : path.Respelled path') (index : Nat) :
    List.Forall₂ Request.Respelled (c.settings path index) (c.settings path' index) := by
  refine List.rel_append ?_ ?_
  · refine List.rel_filterMap ?_ (c.config.entriesAlike_ordered h.profiles)
    rintro ⟨name, profile⟩ ⟨_, profile'⟩ ⟨rfl, hprofile⟩
    have hvalue := hprofile.get? index
    simp only
    generalize profile.get? index = value, profile'.get? index = value' at hvalue
    cases hvalue with
    | none => exact .none
    | some hvalue => exact .some (.assign index name hvalue)
  · have hspeed := h.speed
    generalize path.speed = speed, path'.speed = speed' at hspeed
    cases hspeed with
    | none => exact .nil
    | @some profile profile' hprofile =>
        have hvalue := hprofile.get? index
        rw [Option.bind_some, Option.bind_some]
        generalize profile.get? index = value, profile'.get? index = value' at hvalue
        cases hvalue with
        | none => exact .nil
        | some hvalue => exact .cons (.pathSpeed index hvalue) .nil

theorem respelled_requests (h : path.Respelled path') (frames : List Frame) :
    List.Forall₂ Request.Respelled (c.requests path frames) (c.requests path' frames) := by
  have htravel (target : Pose) : List.Forall₂ Request.Respelled [.travel target] [.travel target] :=
    .cons (.travel target) .nil
  have houtput (on : Bool) :
      List.Forall₂ Request.Respelled (c.processOutput on) (c.processOutput on) := by
    unfold processOutput
    cases c.config.processOutput with
    | none => exact .nil
    | some number => exact .cons (.output number on) .nil
  refine List.rel_append (List.rel_append (List.rel_append (List.rel_append
    (htravel _) (houtput true)) ?_) (houtput false)) (htravel _)
  refine List.rel_flatMap (List.forall₂_same.mpr fun _ _ => rfl) ?_
  rintro ⟨frame, index⟩ _ rfl
  cases index with
  | zero => exact htravel _
  | succ index =>
      exact List.rel_append (c.respelled_settings h (index + 1)) (.cons (.follow frame) .nil)

/-- Given the frames, two paths that differ in spelling come to the same. -/
theorem respelled_run (h : path.Respelled path') (frames : List Frame) :
    (c.run path frames).Respelled (c.run path' frames) ∧
      Option.Rel Request.Respelled
        (Run.stopsAt? c.config.settleTime (Tracker.starting c.config.pathSpeed)
          (c.requests path frames))
        (Run.stopsAt? c.config.settleTime (Tracker.starting c.config.pathSpeed)
          (c.requests path' frames)) :=
  Run.respelled_ofRequests (c.respelled_requests h frames) (.starting c.config.pathSpeed)

theorem compile_result_of_frames {frames : List Frame} (h : c.frames path = .ok frames) :
    (c.compile path).result = (c.run path frames).result.map c.program := by
  rw [compile_result, h]
  rfl

/-- Only at a waypoint is there a value that cannot be written. -/
theorem exists_stopsAt? {e : MotionError} (h : (c.compile path).result = .error e)
    (hkind : e.kind = .unsupportedValue) : ∃ index, c.stopsAt? path = some index := by
  cases hframes : c.frames path with
  | error e' =>
      rw [compile_result, hframes] at h
      cases h
      obtain ⟨_, rfl⟩ | ⟨_, rfl⟩ := c.kind_of_frames_eq_error path hframes <;> cases hkind
  | ok frames =>
      have hlegal : Request.Legal (Tracker.starting c.config.pathSpeed).phase
        (c.requests path frames) := c.legal_requests path frames
      rw [c.compile_result_of_frames hframes] at h
      cases hrun : (c.run path frames).result with
      | ok instructions => rw [hrun] at h; cases h
      | error e' =>
          obtain ⟨r, hstop, hfault⟩ := Run.exists_stopsAt? hlegal (Run.result_eq_error_iff.mp hrun)
          rw [stopsAt?, hframes]
          simp only [hstop, Option.bind_some]
          cases r with
          | assign index | pathSpeed index => exact ⟨index, rfl⟩
          | travel | follow | output => cases hfault

theorem text_eq_of_respelled {instructions instructions' : List Instruction}
    (h : List.Forall₂ Instruction.Respelled instructions instructions') :
    (c.program instructions).text = (c.program instructions').text := by
  have htexts : instructions.map Instruction.text = instructions'.map Instruction.text := by
    rw [← List.forall₂_eq_eq_eq, List.forall₂_map_left_iff, List.forall₂_map_right_iff]
    exact h.imp fun _ _ hi => hi.text_eq
  rw [Program.text, Program.text, Program.instructionText, Program.instructionText, program,
    program, htexts]
  rfl

/-- A path compiles however its whole numbers are spelled, or not at all: to the same text,
or to a failure of the same kind at the same waypoint. A value that cannot be written is
always one of a waypoint. -/
theorem compile_respelled (h : path.Respelled path') :
    (∀ p, (c.compile path).result = .ok p →
        ∃ p', (c.compile path').result = .ok p' ∧ p.text = p'.text) ∧
      ∀ e, (c.compile path).result = .error e →
        ∃ e', (c.compile path').result = .error e' ∧ e.kind = e'.kind ∧ e.Respelled e' ∧
          c.stopsAt? path = c.stopsAt? path' ∧
          (e.kind = .unsupportedValue → ∃ index, c.stopsAt? path = some index) := by
  have hframes := c.frames_eq_of_waypoints_eq h.waypoints
  cases hok : c.frames path with
  | error e =>
      have hresult : (c.compile path).result = .error e := by rw [compile_result, hok]; rfl
      have hresult' : (c.compile path').result = .error e := by
        rw [compile_result, ← hframes, hok]
        rfl
      have hstopsAt : c.stopsAt? path = c.stopsAt? path' := by
        rw [stopsAt?, stopsAt?, ← hframes, hok]
      rw [hresult, hresult']
      refine ⟨nofun, fun e' he => ?_⟩
      cases he
      exact ⟨e, rfl, rfl, .same e, hstopsAt, c.exists_stopsAt? hresult⟩
  | ok frames =>
      obtain ⟨hrun, hstop⟩ := c.respelled_run h frames
      have hstopsAt : c.stopsAt? path = c.stopsAt? path' := by
        rw [stopsAt?, stopsAt?, ← hframes, hok]
        exact Request.bind_index?_eq hstop
      have hresult := c.compile_result_of_frames hok
      have hresult' := c.compile_result_of_frames (hframes ▸ hok)
      rcases hrun.result_cases with ⟨instructions, instructions', hdone, hdone', halike⟩ |
        ⟨failure, failure', hfailed, hfailed', halike⟩
      · rw [hresult, hresult', hdone, hdone']
        refine ⟨fun p hp => ?_, nofun⟩
        cases hp
        exact ⟨_, rfl, c.text_eq_of_respelled halike⟩
      · rw [hresult, hresult', hfailed, hfailed']
        refine ⟨nofun, fun e he => ?_⟩
        cases he
        have hfailure : (c.compile path).result = .error failure := by rw [hresult, hfailed]; rfl
        exact ⟨failure', rfl, halike.kind_eq, halike, hstopsAt, c.exists_stopsAt? hfailure⟩

/-- The path of `pathSetting` with its whole number as a decimal. -/
def pathSettingDecimal (name : String) : Toolpath :=
  (Toolpath.ofWaypoints [⟨Vec3.zero, none⟩, ⟨⟨1, 0, 0⟩, none⟩]).withVariable name
    ⟨[none, some (.decimal 1)]⟩

theorem compile_respelled_setting :
    (pathSetting "A").Respelled (pathSettingDecimal "A") ∧
      ∃ p p', (standard.compile (pathSetting "A")).result = .ok p ∧
        (standard.compile (pathSettingDecimal "A")).result = .ok p' ∧ p.text = p'.text := by
  have hone : ProcessValue.nearest 1 = 1 := by decide +kernel
  have hvalue : (ProcessValue.integer 1).Respelled (.decimal 1) :=
    hone ▸ .decimal (show (1 : Int64).toInt.natAbs ≤ 2 ^ 53 by decide)
  have h : (pathSetting "A").Respelled (pathSettingDecimal "A") :=
    ⟨rfl, .none, .cons ⟨rfl, .cons .none (.cons (.some hvalue) .nil)⟩ .nil⟩
  obtain ⟨p, hp⟩ := exists_ok_of_isOk standard (pathSetting "A") (by decide +kernel)
  obtain ⟨p', hp', htext⟩ := (compile_respelled standard h).1 p hp
  exact ⟨h, p, p', hp, hp', htext⟩

end Compiler

end RobotPath
