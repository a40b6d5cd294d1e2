import RobotPath.Proofs.Compiler.Checks
import RobotPath.Proofs.Compiler.History
import RobotPath.Proofs.Compiler.Order
import RobotPath.Proofs.Decimal.Printed
import RobotPath.Proofs.Program.Lines

/-!
# The path speeds that a controller is given

Every path speed of a program has passed the check that it is positive, but the check
looks at the double and the controller reads four places of it. It is never given a
negative speed; it is given a zero for every speed up to half a unit of the last place.
-/

namespace RobotPath

/-! ## The lines that set the path speed -/

/-- What the content of a line sets the path speed to, if it does. -/
def speedSetting? (content : List Char) : Option String :=
  (content.dropPrefix? "$VEL.CP=".toList).map String.ofList

/-- What the lines of a text set the path speed to. -/
def speedSettings (text : String) : List String :=
  (text.toList.splitOn '\n').filterMap speedSetting?

theorem speedSettings_lines {contents : List String} (h : ∀ content ∈ contents, OneLine content) :
    speedSettings (lines contents) = contents.filterMap fun content =>
      speedSetting? content.toList := by
  induction contents with
  | nil => rfl
  | cons content rest ih =>
      have hrest := ih fun later hlater => h later (List.mem_cons_of_mem content hlater)
      have hfirst : '\n' ∉ content.toList := h content List.mem_cons_self
      have htext : (lines (content :: rest)).toList =
          content.toList ++ '\n' :: (lines rest).toList := by
        rw [lines_cons]
        simp [line]
      rw [speedSettings] at hrest ⊢
      rw [htext, List.splitOn_append_cons_self_of_not_mem hfirst, List.filterMap_cons, hrest,
        List.filterMap_cons]

theorem speedSettings_pathSpeedLine (speed : Float) :
    speedSettings (pathSpeedLine speed) = [Decimal.fixed 4 speed] := by
  have hline : pathSpeedLine speed = lines [s!"$VEL.CP={Decimal.fixed 4 speed}"] := by
    simp [pathSpeedLine, lines]
  rw [hline, speedSettings_lines (by simp [oneLine_iff])]
  simp [speedSetting?, List.dropPrefix?]

/-- Of the lines of the start settings one sets the path speed. -/
theorem speedSettings_start (s : StartSettings) :
    speedSettings (Declaration.start s).text = [Decimal.fixed 4 s.pathSpeed] := by
  obtain ⟨contents, hposition, hnone, hone⟩ : ∃ contents,
      Declaration.startPositionText s = lines contents ∧
        (contents.filterMap fun content => speedSetting? content.toList) = [] ∧
        ∀ content ∈ contents, OneLine content :=
    ⟨_, rfl, by simp [speedSetting?, List.dropPrefix?, braced], by simp [oneLine_iff, braced]⟩
  obtain ⟨more, hsettings, hspeed, hmore⟩ : ∃ more,
      Declaration.pathSettingsText s = lines more ∧
        (more.filterMap fun content => speedSetting? content.toList) =
          [Decimal.fixed 4 s.pathSpeed] ∧
        ∀ content ∈ more, OneLine content :=
    ⟨_, Declaration.pathSettingsText_eq s, by simp [speedSetting?, List.dropPrefix?],
      by simp [oneLine_iff]⟩
  have htext : (Declaration.start s).text = lines (contents ++ more) := by
    rw [lines_append, ← hposition, ← hsettings]
    rfl
  rw [htext, speedSettings_lines (List.forall_mem_append.mpr ⟨hone, hmore⟩),
    List.filterMap_append, hnone, hspeed, List.nil_append]

/-- Whether a declaration sets what holds before the first move. -/
def Declaration.isStart : Declaration → Bool
  | start _ => true
  | header _ | tool _ | base _ | speed .. | raw _ => false

/-- What the path speed is set to in a program, first by its start settings and then
by its instructions. -/
def Program.speedSettings (p : Program) : List String :=
  (p.declarations.filter Declaration.isStart).flatMap (RobotPath.speedSettings ·.text) ++
    (p.instructions.filter (·.pathSpeed?.isSome)).flatMap (RobotPath.speedSettings ·.text)

theorem flatMap_speedSettings_instructions (instructions : List Instruction) :
    (instructions.filter (·.pathSpeed?.isSome)).flatMap (speedSettings ·.text) =
      (instructions.filterMap Instruction.pathSpeed?).map (Decimal.fixed 4) := by
  induction instructions with
  | nil => rfl
  | cons i rest ih =>
      cases hspeed : i.pathSpeed? with
      | none => simp [hspeed, ih]
      | some speed =>
          have htext : i.text = pathSpeedLine speed := by
            cases i <;> cases hspeed
            rfl
          simp [hspeed, ih, htext, speedSettings_pathSpeedLine]

/-! ## The speeds that a run sets -/

theorem pathSpeed?_eq_some_iff {i : Instruction} {speed : Float} :
    i.pathSpeed? = some speed ↔ i = .pathSpeed speed := by
  cases i <;> simp [Instruction.pathSpeed?]

theorem lastSpeed_eq_or_mem (declared : Float) (written : List Instruction) :
    lastSpeed declared written = declared ∨
      .pathSpeed (lastSpeed declared written) ∈ written := by
  unfold lastSpeed
  cases hlast : written.reverse.findSome? Instruction.pathSpeed? with
  | none => exact .inl rfl
  | some speed =>
      obtain ⟨i, hi, hspeed⟩ := List.exists_of_findSome?_eq_some hlast
      rw [pathSpeed?_eq_some_iff.mp hspeed] at hi
      exact .inr (List.mem_reverse.mp hi)

/-- A request for a path speed succeeds only if it is one. -/
theorem Request.Performed.isSpeed {settleTime : Option Float} {t next : Tracker}
    {emission : Emission} {index : Nat} {value : ProcessValue} {speed : Float}
    (h : (Request.pathSpeed index value).Performed settleTime t next emission)
    (hnumber : value.number? = some speed) : Config.isSpeed speed = true := by
  cases h with
  | knownSpeed hspeed | newSpeed hspeed =>
      obtain ⟨hfound, hpositive⟩ := Request.number?_of_speed hspeed
      rw [hnumber, Option.some_inj] at hfound
      exact hfound ▸ hpositive

/-- A path speed that a run is asked for has been set at its end, though maybe earlier,
and maybe by the declarations. -/
theorem Run.eq_or_pathSpeed_mem {declared : Float} {settleTime : Option Float} {t : Tracker}
    {before instructions : List Instruction} {rs : List Request} (h : Tracks declared t before)
    (hrun : (ofRequests settleTime t rs).result = .ok instructions) {index : Nat}
    {value : ProcessValue} {speed : Float} (hmem : .pathSpeed index value ∈ rs)
    (hnumber : value.number? = some speed) :
    speed = declared ∨ .pathSpeed speed ∈ before ++ instructions := by
  induction rs generalizing t before instructions with
  | nil => cases hmem
  | cons r rest ih =>
      obtain ⟨next, emission, later, hp, hrest, rfl⟩ := result_cons_eq_ok hrun
      obtain ⟨hwritten, htracks⟩ := h.step hp
      cases List.mem_cons.mp hmem with
      | inl heq =>
          subst heq
          have hpos : 0 < speed := Config.zero_lt_of_isSpeed (hp.isSpeed hnumber)
          simp only [Request.written, hnumber] at hwritten
          by_cases hknown : (lastSpeed declared before == speed) = true
          · -- The latest speed is this one, and not merely equal to it.
            have hlatest := Reading.eq_of_beq_of_pos hknown hpos
            cases lastSpeed_eq_or_mem declared before with
            | inl hdeclared => exact .inl (hlatest.symm.trans hdeclared)
            | inr hset => exact .inr (List.mem_append_left _ (hlatest ▸ hset))
          · rw [hwritten, if_neg hknown]
            exact .inr (by simp)
      | inr hlater =>
          rw [← List.append_assoc]
          exact ih htracks hrest hlater

/-! ## The speeds that are asked for -/

namespace Compiler

/-- The path speeds that are asked for: the one of the settings, and those of the later
waypoints. -/
inductive AsksFor (c : Compiler) (path : Toolpath) : Float → Prop where
  | declared : AsksFor c path c.config.pathSpeed
  | waypoint {index value speed} (hpos : 0 < index) (hlt : index < path.waypoints.length)
      (hvalue : path.speed.bind (·.get? index) = some value)
      (hnumber : value.number? = some speed) : AsksFor c path speed

variable (c : Compiler) (path : Toolpath) {p : Program}

theorem speedSettings_program (instructions : List Instruction) :
    (c.program instructions).speedSettings =
      (c.config.pathSpeed :: instructions.filterMap Instruction.pathSpeed?).map
        (Decimal.fixed 4) := by
  have hstart : c.config.declarations.filter Declaration.isStart =
      [.start c.config.startSettings] := by
    unfold Config.declarations
    cases c.config.tool <;> cases c.config.base <;> rfl
  rw [Program.speedSettings, program, hstart, flatMap_speedSettings_instructions,
    List.flatMap_singleton, speedSettings_start]
  rfl

theorem asksFor_iff {speed : Float} :
    c.AsksFor path speed ↔ speed = c.config.pathSpeed ∨
      ∃ index value, .pathSpeed index value ∈ c.requests path (path.waypoints.map c.frame) ∧
        value.number? = some speed := by
  simp only [pathSpeed_mem_requests_iff, List.length_map]
  constructor
  · intro hasks
    cases hasks with
    | declared => exact .inl rfl
    | waypoint hpos hlt hvalue hnumber => exact .inr ⟨_, _, ⟨hpos, hlt, hvalue⟩, hnumber⟩
  · intro h
    rcases h with rfl | ⟨index, value, ⟨hpos, hlt, hvalue⟩, hnumber⟩
    · exact .declared
    · exact .waypoint hpos hlt hvalue hnumber

theorem isSpeed_of_asksFor (h : (c.compile path).result = .ok p) {speed : Float}
    (hasks : c.AsksFor path speed) : Config.isSpeed speed = true := by
  obtain ⟨-, instructions, hrun, -⟩ := c.compile_eq_ok path h
  rcases (c.asksFor_iff path).mp hasks with rfl | ⟨index, value, hrequest, hnumber⟩
  · exact c.isSpeed_pathSpeed_of_ok path h
  · obtain ⟨_, _, _, hp⟩ := Run.exists_performed hrun hrequest
    exact hp.isSpeed hnumber

/-- A program sets the path speeds that are asked for, and no others. -/
theorem mem_speedSettings_iff (h : (c.compile path).result = .ok p) {text : String} :
    text ∈ p.speedSettings ↔ ∃ speed, c.AsksFor path speed ∧ Decimal.fixed 4 speed = text := by
  obtain ⟨-, instructions, hrun, rfl⟩ := c.compile_eq_ok path h
  simp only [speedSettings_program, List.mem_map, List.mem_cons, List.mem_filterMap,
    pathSpeed?_eq_some_iff, exists_eq_right, asksFor_iff]
  constructor
  · intro hset
    obtain ⟨speed, hspeed, htext⟩ := hset
    refine ⟨speed, ?_, htext⟩
    rcases hspeed with rfl | hwritten
    · exact .inl rfl
    · obtain ⟨r, hr, hwrites⟩ := Run.exists_writes hrun hwritten
      cases hwrites with
      | pathSpeed hvalid => exact .inr ⟨_, _, hr, (Request.number?_of_speed hvalid).1⟩
  · intro hasked
    obtain ⟨speed, hasks, htext⟩ := hasked
    refine ⟨speed, ?_, htext⟩
    rcases hasks with rfl | ⟨index, value, hrequest, hnumber⟩
    · exact .inl rfl
    · exact Run.eq_or_pathSpeed_mem (Tracks.starting _) hrun hrequest hnumber

/-- The path speeds that a program sets are those asked for, with four places. None of
them is negative, and all are positive exactly when every speed that is asked for exceeds
half a unit of the last place. -/
theorem speedSettings_pos_iff (h : (c.compile path).result = .ok p) :
    (∀ text, text ∈ p.speedSettings ↔
        ∃ speed, c.AsksFor path speed ∧ Decimal.fixed 4 speed = text) ∧
      (∀ text ∈ p.speedSettings, ∃ printed, Decimal.denoted? text = some printed ∧ 0 ≤ printed) ∧
      ((∀ text ∈ p.speedSettings,
          ∃ printed, Decimal.denoted? text = some printed ∧ 0 < printed) ↔
        ∀ speed, c.AsksFor path speed →
          ∃ exact, (Reading.ofFloat speed).value? = some exact ∧ 1 / 20000 < exact) := by
  have hprinted {speed : Float} (hasks : c.AsksFor path speed) :
      ∃ printed exact, Decimal.denoted? (Decimal.fixed 4 speed) = some printed ∧
        (Reading.ofFloat speed).value? = some exact ∧ 0 ≤ printed ∧
        (0 < printed ↔ 1 / 20000 < exact) := by
    have hspeed := c.isSpeed_of_asksFor path h hasks
    have hhalf : (1 : ℚ) / (2 * 10 ^ 4) = 1 / 20000 := by norm_num
    rw [← hhalf]
    exact Decimal.denoted?_fixed_of_pos 4 (Config.zero_lt_of_isSpeed hspeed)
      (Config.isFinite_of_isSpeed hspeed)
  refine ⟨fun text => c.mem_speedSettings_iff path h, ?_, ?_, ?_⟩
  · intro text htext
    obtain ⟨speed, hasks, rfl⟩ := (c.mem_speedSettings_iff path h).mp htext
    obtain ⟨printed, -, hdenoted, -, hnonneg, -⟩ := hprinted hasks
    exact ⟨printed, hdenoted, hnonneg⟩
  · intro hall speed hasks
    obtain ⟨printed, exact, hdenoted, hexact, -, hpos⟩ := hprinted hasks
    obtain ⟨found, hfound, hpositive⟩ :=
      hall _ ((c.mem_speedSettings_iff path h).mpr ⟨speed, hasks, rfl⟩)
    rw [hdenoted, Option.some_inj] at hfound
    exact ⟨exact, hexact, hpos.mp (hfound ▸ hpositive)⟩
  · intro hall text htext
    obtain ⟨speed, hasks, rfl⟩ := (c.mem_speedSettings_iff path h).mp htext
    obtain ⟨printed, exact, hdenoted, hexact, -, hpos⟩ := hprinted hasks
    obtain ⟨found, hfound, hlarge⟩ := hall speed hasks
    rw [hexact, Option.some_inj] at hfound
    exact ⟨printed, hdenoted, hpos.mpr (hfound ▸ hlarge)⟩

/-- A path of two waypoints that sets the path speed, at the second of them. -/
def pathAtSpeed (speed : Float) : Toolpath :=
  { Toolpath.ofWaypoints [⟨Vec3.zero, none⟩, ⟨⟨1, 0, 0⟩, none⟩] with
    speed := some ⟨[none, some (.decimal speed)]⟩ }

theorem asksFor_pathAtSpeed_iff {speed other : Float} :
    c.AsksFor (pathAtSpeed speed) other ↔ other = c.config.pathSpeed ∨ other = speed := by
  constructor
  · intro hasks
    cases hasks with
    | declared => exact .inl rfl
    | @waypoint index value _ hpos hlt hvalue hnumber =>
        -- The path has no later waypoint but its second one.
        have hindex : index = 1 := by
          change index < 2 at hlt
          omega
        subst hindex
        cases hvalue
        cases hnumber
        exact .inr rfl
  · intro h
    rcases h with rfl | rfl
    · exact .declared
    · exact .waypoint Nat.one_pos Nat.one_lt_two rfl rfl

theorem speedSettings_pos_pathAtSpeed :
    ∃ p, (standard.compile (pathAtSpeed 0.25)).result = .ok p ∧
      ∀ text ∈ p.speedSettings, ∃ printed, Decimal.denoted? text = some printed ∧ 0 < printed := by
  obtain ⟨p, hresult⟩ := exists_ok_of_isOk standard (pathAtSpeed 0.25) (by decide +kernel)
  obtain ⟨-, -, hpos⟩ := speedSettings_pos_iff standard _ hresult
  refine ⟨p, hresult, hpos.mpr fun speed hasks => ?_⟩
  rcases standard.asksFor_pathAtSpeed_iff.mp hasks with rfl | rfl
  · have hreading : Reading.ofFloat standard.config.pathSpeed =
        .finite false 7205759403792794 (-57) := by decide +kernel
    exact ⟨_, by rw [hreading]; rfl, by norm_num⟩
  · have hreading : Reading.ofFloat 0.25 = .finite false 4503599627370496 (-54) := by
      decide +kernel
    exact ⟨_, by rw [hreading]; rfl, by norm_num⟩

/-- A speed of a hundredth of a millimetre a second is accepted, and set as zero. -/
theorem not_speedSettings_pos :
    ∃ p, (standard.compile (pathAtSpeed 0.00001)).result = .ok p ∧
      ∃ text ∈ p.speedSettings, Decimal.denoted? text = some 0 := by
  obtain ⟨p, hresult⟩ := exists_ok_of_isOk standard (pathAtSpeed 0.00001) (by decide +kernel)
  refine ⟨p, hresult, "0.0000", ?_, by decide +kernel⟩
  rw [standard.mem_speedSettings_iff _ hresult]
  exact ⟨0.00001, standard.asksFor_pathAtSpeed_iff.mpr (.inr rfl), by decide +kernel⟩

end Compiler

end RobotPath
