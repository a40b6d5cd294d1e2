import RobotPath.Proofs.Compiler.Checks
import RobotPath.Proofs.Compiler.History
import RobotPath.Proofs.Compiler.Order
import RobotPath.Proofs.Program.Lines

/-!
# Programs that are read line by line

A compiled program has one line for each instruction, and closes once, at its end.
That holds unless a name brings line feeds of its own: the name of a variable that is
assigned must have none, and the name of the program must not hold the closing line.
-/

namespace RobotPath

/-- A program whose text has the lines that its instructions ask for. -/
structure Program.LineStructured (p : Program) : Prop where
  /-- After the declarations there is one line for each instruction, and the closing
  line. -/
  motion : ∃ contents : List String, (∀ content ∈ contents, OneLine content) ∧
    p.instructions.map Instruction.text = contents.map line ∧
    p.text = p.declarationText ++ lines contents ++ line Program.endMarker
  /-- The closing line is the last one, and there is no other like it. -/
  closing : ∃ before,
    p.text.toList.splitOn '\n' = before ++ [Program.endMarker.toList, []] ∧
      Program.endMarker.toList ∉ before

/-! ## Declarations -/

theorem InnerLines.join {texts : List String} (h : ∀ text ∈ texts, InnerLines text) :
    InnerLines (String.join texts) := by
  induction texts with
  | nil => exact ⟨[], rfl, by simp⟩
  | cons text rest ih =>
      have hrest := ih fun later hlater => h later (List.mem_cons_of_mem text hlater)
      rw [String.join_cons]
      exact (h text List.mem_cons_self).append hrest

/-- Of the lines of the declarations only the one that names the program can break. -/
theorem Config.declarationText_eq (c : Config) :
    ∃ front back, String.join (c.declarations.map Declaration.text) =
        lines (front ++ s!"DEF {c.programName}()" :: back) ∧
      (∀ content ∈ front, InnerLine content) ∧ ∀ content ∈ back, InnerLine content := by
  have hrest : InnerLines (String.join (((c.tool.map Declaration.tool).toList ++
      (c.base.map Declaration.base).toList ++ [Declaration.start c.startSettings]).map
      Declaration.text)) := by
    refine InnerLines.join fun text htext => ?_
    obtain ⟨declaration, hmem, rfl⟩ := List.mem_map.mp htext
    simp only [List.mem_append, List.mem_singleton, Option.mem_toList, Option.map_eq_some_iff]
      at hmem
    rcases hmem with (⟨tool, -, rfl⟩ | ⟨base, -, rfl⟩) | rfl
    · exact Declaration.innerLines_toolText tool
    · exact Declaration.innerLines_baseText base
    · exact (Declaration.innerLines_startPositionText _).append
        (Declaration.innerLines_pathSettingsText _)
  obtain ⟨front, back, hheader, hfront, hback⟩ := Declaration.headerText_eq c.programName
  obtain ⟨more, hmore, hinner⟩ := hrest
  refine ⟨front, back ++ more, ?_, hfront, fun content h => ?_⟩
  · have hdeclarations : c.declarations.map Declaration.text =
        Declaration.headerText c.programName :: ((c.tool.map Declaration.tool).toList ++
          (c.base.map Declaration.base).toList ++ [Declaration.start c.startSettings]).map
          Declaration.text := rfl
    rw [hdeclarations, String.join_cons, hheader, hmore, ← lines_append, List.append_assoc,
      List.cons_append]
  · cases List.mem_append.mp h with
    | inl h => exact hback content h
    | inr h => exact hinner content h

/-! ## Instructions -/

/-- What a request writes is one line, if its variable has a name without line feeds. -/
theorem Request.Writes.exists_content {settleTime : Option Float} {r : Request} {i : Instruction}
    (h : r.Writes settleTime i)
    (hname : ∀ index name value, r = .assign index name value → OneLine name) :
    ∃ content, i.text = line content ∧ InnerLine content := by
  cases h with
  | travel target =>
      have hcoordinates := Instruction.lineFeed_notMem_coordinates target.lineFeed_notMem_fields
      exact ⟨_, rfl, innerLine_iff.mpr (by simp [hcoordinates])⟩
  | follow target =>
      have hcoordinates := Instruction.lineFeed_notMem_coordinates target.lineFeed_notMem_fields
      exact ⟨_, rfl, innerLine_iff.mpr (by simp [hcoordinates])⟩
  | output number on => exact ⟨_, rfl, innerLine_iff.mpr (by simp)⟩
  | @assign index name value text hliteral =>
      have hfree := oneLine_iff.mp (hname index name value rfl)
      refine ⟨_, rfl, innerLine_iff.mpr ⟨by simp [hfree], fun hend => ?_⟩⟩
      -- The name can be anything, so the sign is what tells the line from the closing one.
      have hsign : '=' ∈ ['E', 'N', 'D'] := by
        rw [← hend]
        simp
      simp at hsign
  | @pause index name value seconds hsettle => exact ⟨_, rfl, innerLine_iff.mpr (by simp)⟩
  | @pathSpeed index value speed hspeed => exact ⟨_, rfl, innerLine_iff.mpr (by simp)⟩

theorem exists_contents {instructions : List Instruction}
    (h : ∀ i ∈ instructions, ∃ content, i.text = line content ∧ InnerLine content) :
    ∃ contents : List String, instructions.map Instruction.text = contents.map line ∧
      ∀ content ∈ contents, InnerLine content := by
  induction instructions with
  | nil => exact ⟨[], rfl, by simp⟩
  | cons i rest ih =>
      obtain ⟨content, htext, hcontent⟩ := h i List.mem_cons_self
      obtain ⟨contents, hrest, hcontents⟩ :=
        ih fun later hlater => h later (List.mem_cons_of_mem i hlater)
      refine ⟨content :: contents, by rw [List.map_cons, htext, hrest]; rfl, ?_⟩
      rw [List.forall_mem_cons]
      exact ⟨hcontent, hcontents⟩

theorem line_inj {a b : String} (h : line a = line b) : a = b := by
  rw [← String.toList_inj] at h ⊢
  simpa [line] using h

/-- In a program that is read line by line, variables have names without line feeds. -/
theorem Program.LineStructured.oneLine_of_assign {p : Program} (h : p.LineStructured)
    {name : String} {value : ProcessValue} (hmem : .assign name value ∈ p.instructions) :
    OneLine name := by
  obtain ⟨contents, hcontents, htext, -⟩ := h.motion
  have htexts := List.mem_map_of_mem (f := Instruction.text) hmem
  rw [htext] at htexts
  obtain ⟨content, hcontent, heq⟩ := List.mem_map.mp htexts
  have hassign : content = name ++ " = " ++ value.literal := line_inj heq
  have hone := hcontents content hcontent
  rw [hassign, oneLine_iff] at hone
  simp only [String.toList_append, List.mem_append, not_or] at hone
  exact hone.1.1

/-! ## When a program is read line by line -/

/-- A path with a value of the variable at one of its later waypoints. -/
def Toolpath.Sets (path : Toolpath) (name : String) : Prop :=
  ∃ profile index, path.profiles.find? name = some profile ∧ 0 < index ∧
    index < path.waypoints.length ∧ (profile.get? index).isSome

namespace Compiler

variable (c : Compiler) (path : Toolpath) {p : Program}

theorem oneLine_of_sets (h : (c.compile path).result = .ok p) (hlines : p.LineStructured)
    {name : String} (hsets : path.Sets name) : OneLine name := by
  obtain ⟨-, instructions, hrun, rfl⟩ := c.compile_eq_ok path h
  obtain ⟨profile, index, hfind, hpos, hlt, hvalue⟩ := hsets
  obtain ⟨value, hvalue⟩ := Option.isSome_iff_exists.mp hvalue
  have hrequest : .assign index name value ∈ c.requests path (path.waypoints.map c.frame) :=
    (c.assign_mem_requests_iff path).mpr
      ⟨hpos, by rwa [List.length_map], profile, hfind, hvalue⟩
  obtain ⟨latest, hlatest⟩ :=
    Run.exists_assign (Tracks.starting c.config.pathSpeed) hrun hrequest
  exact hlines.oneLine_of_assign hlatest

theorem not_infix_of_lineStructured (h : (c.compile path).result = .ok p)
    (hlines : p.LineStructured) : ¬ "\nEND\n".toList <:+: c.config.programName.toList := by
  obtain ⟨-, instructions, -, rfl⟩ := c.compile_eq_ok path h
  obtain ⟨contents, -, -, htext⟩ := hlines.motion
  obtain ⟨front, back, hdeclared, -, -⟩ := c.config.declarationText_eq
  have hclosing := hlines.closing
  have hdeclaration : (c.program instructions).declarationText =
      lines (front ++ s!"DEF {c.config.programName}()" :: back) := hdeclared
  rw [htext, hdeclaration, ← lines_append, closing_iff] at hclosing
  rw [← closesEarly_title_iff]
  exact hclosing _ (by simp)

theorem lineStructured_of_names (h : (c.compile path).result = .ok p)
    (hnames : ∀ name, path.Sets name → OneLine name)
    (hprogram : ¬ "\nEND\n".toList <:+: c.config.programName.toList) : p.LineStructured := by
  obtain ⟨-, instructions, hrun, rfl⟩ := c.compile_eq_ok path h
  have hwritten : ∀ i ∈ instructions, ∃ content, i.text = line content ∧ InnerLine content := by
    intro i hi
    obtain ⟨r, hr, hwrites⟩ := Run.exists_writes hrun hi
    refine hwrites.exists_content fun index name value heq => ?_
    subst heq
    obtain ⟨hpos, hlt, profile, hfind, hvalue⟩ := (c.assign_mem_requests_iff path).mp hr
    rw [List.length_map] at hlt
    exact hnames name ⟨profile, index, hfind, hpos, hlt, by rw [hvalue]; rfl⟩
  obtain ⟨contents, hcontents, hinner⟩ := exists_contents hwritten
  obtain ⟨front, back, hdeclared, hfront, hback⟩ := c.config.declarationText_eq
  have hdeclaration : (c.program instructions).declarationText =
      lines (front ++ s!"DEF {c.config.programName}()" :: back) := hdeclared
  have htext : (c.program instructions).text = (c.program instructions).declarationText ++
      lines contents ++ line Program.endMarker := by
    change _ ++ String.join (instructions.map Instruction.text) ++ _ = _
    rw [hcontents]
    rfl
  refine ⟨⟨contents, fun content hc => (hinner content hc).oneLine, hcontents, htext⟩, ?_⟩
  rw [htext, hdeclaration, ← lines_append, closing_iff]
  -- Every line but the one with the name of the program is an inner line.
  intro content hcontent
  simp only [List.mem_append, List.mem_cons] at hcontent
  rcases hcontent with (hmem | rfl | hmem) | hmem
  · exact (hfront content hmem).not_closesEarly
  · rwa [closesEarly_title_iff]
  · exact (hback content hmem).not_closesEarly
  · exact (hinner content hmem).not_closesEarly

/-- A compiled program is read line by line exactly when no variable that it assigns
has a line feed in its name, and its own name does not hold the closing line. -/
theorem lineStructured_iff (h : (c.compile path).result = .ok p) :
    p.LineStructured ↔
      (∀ name, path.Sets name → '\n' ∉ name.toList) ∧
        ¬ "\nEND\n".toList <:+: c.config.programName.toList :=
  ⟨fun hlines => ⟨fun _ => c.oneLine_of_sets path h hlines,
      c.not_infix_of_lineStructured path h hlines⟩,
    fun hnames => c.lineStructured_of_names path h hnames.1 hnames.2⟩

theorem sets_pathSetting_iff {name other : String} :
    (pathSetting name).Sets other ↔ other = name := by
  have hfind (other : String) : (pathSetting name).profiles.find? other =
      if other = name then some ⟨[none, some (.integer 1)]⟩ else none := NameMap.find?_insert ..
  constructor
  · rintro ⟨profile, index, hprofile, -⟩
    rw [hfind] at hprofile
    split at hprofile
    next heq => exact heq
    next => cases hprofile
  · rintro rfl
    exact ⟨_, 1, (hfind other).trans (if_pos rfl), Nat.one_pos, Nat.one_lt_two, rfl⟩

theorem lineStructured_setting :
    ∃ p, (standard.compile (pathSetting "A")).result = .ok p ∧ p.LineStructured := by
  obtain ⟨p, hresult⟩ := exists_ok_of_isOk standard (pathSetting "A") (by decide +kernel)
  refine ⟨p, hresult, (lineStructured_iff standard _ hresult).mpr ⟨fun name hsets => ?_, ?_⟩⟩
  · rw [sets_pathSetting_iff.mp hsets]
    simp
  · decide +kernel

/-- A name with a line feed is accepted, and its assignment takes two lines. -/
theorem not_lineStructured_setting :
    ∃ p, (standard.compile (pathSetting "A\nEND")).result = .ok p ∧ ¬ p.LineStructured := by
  obtain ⟨p, hresult⟩ := exists_ok_of_isOk standard (pathSetting "A\nEND") (by decide +kernel)
  refine ⟨p, hresult, fun hlines => ?_⟩
  have hone := standard.oneLine_of_sets _ hresult hlines (sets_pathSetting_iff.mpr rfl)
  exact hone (by simp)

end Compiler

end RobotPath
