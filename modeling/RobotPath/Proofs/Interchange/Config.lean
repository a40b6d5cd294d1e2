import RobotPath.Interchange.Config
import RobotPath.Proofs.Interchange.Pose

/-!
# Stored configurations are read back

A stored configuration overrides exactly the fields that it names, in whichever order it
names them: the others keep their standard values, and members of other names change
nothing. A field that is null is named all the same.
-/

namespace RobotPath

open Json

/-- A tool whose numbers are finite. -/
def Tool.IsFinite (tool : Tool) : Prop :=
  tool.mass.isFinite = true ∧ tool.centerOfMass.isFinite = true

/-- The stored fields of a tool. -/
def Tool.members (tool : Tool) : Record :=
  [("number", ofWord tool.number), ("mass", ofFloat tool.mass),
   ("center_of_mass", tool.centerOfMass.toJson)]

theorem Tool.ofJson?_toJson {tool : Tool} (h : tool.IsFinite) :
    ofJson? tool.toJson = some tool := by
  have hnodup : (tool.members.map Prod.fst).Nodup := show fieldNames.Nodup by decide
  have hrecord : record? fieldNames tool.toJson = some tool.members := record?_members rfl hnodup
  have hnumber : tool.members.required "number" word? = some tool.number :=
    Record.required_of_mem hnodup (by simp [members]) (word?_ofWord tool.number)
  have hmass : tool.members.required "mass" float? = some tool.mass :=
    Record.required_of_mem hnodup (by simp [members]) (float?_ofFloat h.1)
  have hcenter : tool.members.required "center_of_mass" Vec3.ofJson? = some tool.centerOfMass :=
    Record.required_of_mem hnodup (by simp [members]) (Vec3.ofJson?_toJson h.2)
  rw [ofJson?, bind_of_eq_some hrecord, bind_of_eq_some hnumber, bind_of_eq_some hmass,
    bind_of_eq_some hcenter]
  rfl

/-- The stored fields of a base. -/
def Base.members (base : Base) : Record := ("number", ofWord base.number) :: base.frame.members

theorem Base.ofJson?_toJson {base : Base} (h : base.frame.isFinite = true) :
    ofJson? base.toJson = some base := by
  rw [Frame.isFinite, Bool.and_eq_true] at h
  have hnodup : (base.members.map Prod.fst).Nodup := show fieldNames.Nodup by decide
  have hrecord : record? fieldNames base.toJson = some base.members := record?_members rfl hnodup
  have hnumber : base.members.required "number" word? = some base.number :=
    Record.required_of_mem hnodup (by simp [members]) (word?_ofWord base.number)
  have hposition : base.members.required "position" Vec3.ofJson? = some base.frame.position :=
    Record.required_of_mem hnodup (by simp [members, Frame.members]) (Vec3.ofJson?_toJson h.1)
  have horientation :
      base.members.required "orientation" Vec3.ofJson? = some base.frame.orientation :=
    Record.required_of_mem hnodup (by simp [members, Frame.members]) (Vec3.ofJson?_toJson h.2)
  rw [ofJson?, bind_of_eq_some hrecord, bind_of_eq_some hnumber, bind_of_eq_some hposition,
    bind_of_eq_some horientation]
  rfl

namespace Config

/-- A configuration whose numbers are finite. -/
structure IsFinite (c : Config) : Prop where
  speedPercent : c.speedPercent.isFinite = true
  acceleration : c.acceleration.isFinite = true
  pathSpeed : c.pathSpeed.isFinite = true
  home : c.home.isFinite = true
  defaultOrientation : c.defaultOrientation.isFinite = true
  settleTime : ∀ seconds ∈ c.settleTime, seconds.isFinite = true
  tool : ∀ tool ∈ c.tool, tool.IsFinite
  base : ∀ base ∈ c.base, base.frame.isFinite = true

/-- The standard settings, but for the fields of the chosen names. -/
def overriding (c : Config) (chosen : String → Bool) : Config where
  programName := if chosen "program_name" then c.programName else standard.programName
  baseNumber := if chosen "base_number" then c.baseNumber else standard.baseNumber
  toolNumber := if chosen "tool_number" then c.toolNumber else standard.toolNumber
  speedPercent := if chosen "speed_percent" then c.speedPercent else standard.speedPercent
  acceleration := if chosen "acceleration" then c.acceleration else standard.acceleration
  pathSpeed := if chosen "path_speed" then c.pathSpeed else standard.pathSpeed
  lookAhead := if chosen "look_ahead_distance" then c.lookAhead else standard.lookAhead
  home := if chosen "home_pose" then c.home else standard.home
  defaultOrientation :=
    if chosen "default_orientation" then c.defaultOrientation else standard.defaultOrientation
  variablePriority :=
    if chosen "variable_priority" then c.variablePriority else standard.variablePriority
  settleTime := if chosen "assignment_settle_time" then c.settleTime else standard.settleTime
  processOutput := if chosen "process_output" then c.processOutput else standard.processOutput
  tool := if chosen "tool_data" then c.tool else standard.tool
  base := if chosen "base_frame" then c.base else standard.base

variable {c : Config} {chosen : String → Bool} {held : List (String × Json)}

/-- The stored form holds each field once. -/
theorem map_fst_members (c : Config) : c.members.map Prod.fst = fieldNames := rfl

/-- What is read are the fields that an object names. -/
theorem ofJson?_record (h : c.IsFinite)
    (hheld : (held.filter fun member => fieldNames.contains member.1).Perm
      (c.members.filter fun member => chosen member.1)) :
    ofJson? (.record held) = some (c.overriding chosen) := by
  have hnodup : (c.members.map Prod.fst).Nodup := show fieldNames.Nodup by decide
  have hknown : ((held.filter fun member => fieldNames.contains member.1).map Prod.fst).Nodup :=
    Record.nodup_of_perm hheld hnodup
  have hpriority : list? text? (.array (c.variablePriority.map .text)) = some c.variablePriority :=
    list?_map fun _ _ => rfl
  have hpause : nullable? float? (ofOption ofFloat c.settleTime) = some c.settleTime :=
    nullable?_ofOption rfl fun seconds hseconds => float?_ofFloat (h.settleTime seconds hseconds)
  have houtput : nullable? word? (ofOption ofWord c.processOutput) = some c.processOutput :=
    nullable?_ofOption rfl fun number _ => word?_ofWord number
  have htool : nullable? Tool.ofJson? (ofOption Tool.toJson c.tool) = some c.tool :=
    nullable?_ofOption rfl fun tool htool => Tool.ofJson?_toJson (h.tool tool htool)
  have hbase : nullable? Base.ofJson? (ofOption Base.toJson c.base) = some c.base :=
    nullable?_ofOption rfl fun base hbase => Base.ofJson?_toJson (h.base base hbase)
  rw [ofJson?, bind_of_eq_some (record?_record rfl hknown)]
  generalize (held.filter fun member => fieldNames.contains member.1) = r at hheld
  have hfield {α : Type} {name : String} {value : Json} {read? : Json → Option α} {a : α}
      (hread : read? value = some a) (hmem : (name, value) ∈ c.members) (absent : α)
      (next : α → Option Config) : (Record.optional r name read? absent >>= next) =
        next (if chosen name then a else absent) :=
    bind_of_eq_some (Record.optional_of_perm hheld hnodup hmem hread absent) next
  rw [hfield (rfl : text? (.text c.programName) = _) (by simp [members]),
    hfield (word?_ofWord c.baseNumber) (by simp [members]),
    hfield (word?_ofWord c.toolNumber) (by simp [members]),
    hfield (float?_ofFloat h.speedPercent) (by simp [members]),
    hfield (float?_ofFloat h.acceleration) (by simp [members]),
    hfield (float?_ofFloat h.pathSpeed) (by simp [members]),
    hfield (word?_ofWord c.lookAhead) (by simp [members]),
    hfield (Pose.ofJson?_toJson h.home (by decide)) (by simp [members]),
    hfield (Vec3.ofJson?_toJson h.defaultOrientation) (by simp [members]),
    hfield hpriority (by simp [members]), hfield hpause (by simp [members]),
    hfield houtput (by simp [members]), hfield htool (by simp [members]),
    hfield hbase (by simp [members])]
  rfl

theorem ofJson?_toJson (h : c.IsFinite) : ofJson? c.toJson = some c := by
  have hall : (c.members.filter fun member => fieldNames.contains member.1).Perm
      (c.members.filter fun _ => true) := by
    rw [List.filter_eq_self.mpr fun member hmember => ?_, List.filter_true]
    rw [List.contains_iff_mem, ← c.map_fst_members]
    exact List.mem_map_of_mem hmember
  rw [toJson, @ofJson?_record c (fun _ => true) c.members h hall]
  rfl

/-- A configuration overrides exactly the fields that its text names; with all of them it is
read back. -/
theorem read_overriding (h : c.IsFinite) :
    (∀ chosen held text,
      (held.filter fun member => fieldNames.contains member.1).Perm
          (c.members.filter fun member => chosen member.1) →
        Json.read? text = some (.record held) → read text = .ok (c.overriding chosen)) ∧
      ofJson? c.toJson = some c := by
  constructor
  · intro chosen held text hheld htext
    rw [read, htext, bind_of_eq_some rfl, ofJson?_record h hheld]
  · exact ofJson?_toJson h

theorem isFinite_standard : standard.IsFinite where
  speedPercent := by decide +kernel
  acceleration := by decide +kernel
  pathSpeed := by decide +kernel
  home := by decide +kernel
  defaultOrientation := by decide +kernel
  settleTime := by
    intro seconds h
    cases h
    decide +kernel
  tool := nofun
  base := nofun

/-- The standard settings without a pause, and with another base. -/
def unpaused : Config := { standard with settleTime := none, baseNumber := 7 }

theorem read_overriding_unpaused :
    unpaused.IsFinite ∧
      read "\x7b\"assignment_settle_time\":null,\"kind\":[0],\"base_number\":7\x7d" =
        .ok unpaused := by
  have h : unpaused.IsFinite := { isFinite_standard with settleTime := nofun }
  refine ⟨h, (read_overriding h).1
    (fun name => name = "assignment_settle_time" || name = "base_number")
    [("assignment_settle_time", .null), ("kind", .array [.integer 0]), ("base_number", .integer 7)]
    _ ?_ rfl⟩
  exact .swap _ _ _

end Config

end RobotPath
