import RobotPath.Interchange.Pose
import RobotPath.Proofs.Json.Record
import RobotPath.Proofs.Motion.Pose

/-!
# Stored points, placements and poses

Points and placements are read back, and so are axis angles and frames, also when they are
stored with the name of their shape. A pose has no defects and is nested twice, so whoever
reads it from within few records gets it back.
-/

namespace RobotPath

namespace Json

/-! ## Numbers have no defects -/

theorem depth_ofFloat (x : Float) : (ofFloat x).depth = 0 := by
  unfold ofFloat
  split <;> simp [depth]

theorem isSound_ofFloat (x : Float) : (ofFloat x).isSound = true := by
  unfold ofFloat
  split
  next h => rw [isSound, h]
  next => rw [isSound]

@[simp] theorem itemsDepth_map_ofFloat (xs : List Float) : itemsDepth (xs.map ofFloat) = 0 := by
  induction xs with
  | nil => simp [itemsDepth]
  | cons x rest ih => simp [itemsDepth, depth_ofFloat, ih]

@[simp] theorem itemsSound_map_ofFloat (xs : List Float) :
    itemsSound (xs.map ofFloat) = true := by
  induction xs with
  | nil => simp [itemsSound]
  | cons x rest ih => simp [itemsSound, isSound_ofFloat, ih]

end Json

open Json

theorem Vec3.ofJson?_toJson {v : Vec3} (h : v.isFinite = true) : ofJson? v.toJson = some v := by
  have hread : floats? 3 v.toJson = some ⟨v.toList.toArray, rfl⟩ :=
    floats?_map ⟨_, rfl⟩ (v.isFinite_iff.mp h)
  rw [ofJson?, bind_of_eq_some hread]
  rfl

theorem Affine3.ofJson?_toJson {a : Affine3} (h : ∀ x ∈ a.toList, x.isFinite = true) :
    ofJson? a.toJson = some a := by
  have hread : floats? 12 a.toJson = some ⟨a.toList.toArray, rfl⟩ := floats?_map ⟨_, rfl⟩ h
  rw [ofJson?, bind_of_eq_some hread]
  rfl

/-- A placement whose numbers are finite. -/
def Placement.IsFinite (t : Placement) : Prop :=
  (∀ x ∈ t.affine.toList, x.isFinite = true) ∧ t.unitScale.isFinite = true

/-- The stored fields of a placement. -/
def Placement.members (t : Placement) : Record :=
  [("affine", t.affine.toJson), ("unit_scale", t.unitScale.toJson)]

theorem Placement.ofJson?_toJson {t : Placement} (h : t.IsFinite) : ofJson? t.toJson = some t := by
  have hnodup : (t.members.map Prod.fst).Nodup := show fieldNames.Nodup by decide
  have hrecord : record? fieldNames t.toJson = some t.members := record?_members rfl hnodup
  have haffine : t.members.required "affine" Affine3.ofJson? = some t.affine :=
    Record.required_of_mem hnodup (by simp [members]) (Affine3.ofJson?_toJson h.1)
  have hscale : t.members.required "unit_scale" Vec3.ofJson? = some t.unitScale :=
    Record.required_of_mem hnodup (by simp [members]) (Vec3.ofJson?_toJson h.2)
  rw [ofJson?, bind_of_eq_some hrecord, bind_of_eq_some haffine, bind_of_eq_some hscale]
  rfl

namespace AxisAngles

theorem isFinite_iff (a : AxisAngles) :
    a.isFinite = true ↔ (∀ x ∈ a.axes.toList, x.isFinite = true) ∧
      ∀ external ∈ a.external, ∀ x ∈ external.toList, x.isFinite = true := by
  rw [isFinite, List.all_eq_true, toList, List.forall_mem_append]
  cases a.external <;> simp

/-- Axis angles are read from their members, whatever else there is. -/
theorem ofJson?_record {a : AxisAngles} {held : List (String × Json)}
    (hheld : (held.filter fun member => fieldNames.contains member.1) = a.members)
    (h : a.isFinite = true) : ofJson? (.record held) = some a := by
  obtain ⟨haxes, hexternal⟩ := a.isFinite_iff.mp h
  have hread : nullable? (floats? 4)
      (ofOption (fun v => .array (v.toList.map ofFloat)) a.external) = some a.external :=
    nullable?_ofOption rfl fun v hv => floats?_map v (hexternal v hv)
  have hnodup : (a.members.map Prod.fst).Nodup := show fieldNames.Nodup by decide
  rw [ofJson?, bind_of_eq_some (record?_record hheld hnodup),
    bind_of_eq_some (Record.required_of_mem hnodup (by simp [members]) (floats?_map a.axes haxes)),
    bind_of_eq_some (Record.optional_of_mem hnodup (by simp [members]) hread none)]
  rfl

end AxisAngles

/-- A frame is read from its members, whatever else there is. -/
theorem Frame.ofJson?_record {f : Frame} {held : List (String × Json)}
    (hheld : (held.filter fun member => fieldNames.contains member.1) = f.members)
    (h : f.isFinite = true) : ofJson? (.record held) = some f := by
  rw [isFinite, Bool.and_eq_true] at h
  have hnodup : (f.members.map Prod.fst).Nodup := show fieldNames.Nodup by decide
  rw [ofJson?, bind_of_eq_some (record?_record hheld hnodup),
    bind_of_eq_some (Record.required_of_mem hnodup (by simp [members]) (Vec3.ofJson?_toJson h.1)),
    bind_of_eq_some (Record.required_of_mem hnodup (by simp [members]) (Vec3.ofJson?_toJson h.2))]
  rfl

namespace Pose

theorem isSound_toJson (pose : Pose) : pose.toJson.isSound = true := by
  cases pose with
  | joint angles =>
      simp [toJson, record, AxisAngles.members, isSound, membersSound, Json.text]
      cases angles.external <;> simp [ofOption, isSound]
  | cartesian frame =>
      simp [toJson, record, Frame.members, isSound, membersSound, Json.text, Vec3.toJson]

theorem depth_toJson (pose : Pose) : pose.toJson.depth = 2 := by
  cases pose with
  | joint angles =>
      simp [toJson, record, AxisAngles.members, depth, membersDepth, Json.text]
      cases angles.external <;> simp [ofOption, depth]
  | cartesian frame =>
      simp [toJson, record, Frame.members, depth, membersDepth, Json.text, Vec3.toJson]

/-- A pose is read from the record of its shape. -/
theorem ofJson?_record {held : List (String × Json)} {shape : PoseShape} {enclosing : Nat}
    (hkind : (held.filter fun member => ["kind"].contains member.1) = [("kind", .text shape.name)])
    (hsound : (record held).isSound = true)
    (hdepth : (record held).depth + enclosing ≤ deepestNesting) :
    ofJson? enclosing (.record held) = ofShaped? (.record held) shape := by
  have hshape : PoseShape.ofJson? (.text shape.name) = some shape := by
    cases shape <;> decide
  unfold ofJson?
  rw [if_pos (by simp [hsound, hdepth])]
  change (record? ["kind"] (.record held)).bind _ = _
  rw [record?_record hkind (by simp), Option.bind_some]
  change (PoseShape.ofJson? (.text shape.name)).bind _ = _
  rw [hshape, Option.bind_some]

/-- A finite pose is read back within as many records as there may be. -/
theorem ofJson?_toJson {pose : Pose} (h : pose.isFinite = true) {enclosing : Nat}
    (henclosing : 2 + enclosing ≤ deepestNesting) : ofJson? enclosing pose.toJson = some pose := by
  have hdepth : pose.toJson.depth + enclosing ≤ deepestNesting := by rwa [depth_toJson]
  have hsound := pose.isSound_toJson
  cases pose with
  | joint angles =>
      have hangles : AxisAngles.ofJson? (joint angles).toJson = some angles :=
        AxisAngles.ofJson?_record rfl h
      calc ofJson? enclosing (joint angles).toJson
          = ofShaped? (joint angles).toJson .joint := ofJson?_record rfl hsound hdepth
        _ = some (joint angles) := by rw [ofShaped?, hangles, Option.map_some]
  | cartesian frame =>
      have hframe : Frame.ofJson? (cartesian frame).toJson = some frame :=
        Frame.ofJson?_record rfl h
      calc ofJson? enclosing (cartesian frame).toJson
          = ofShaped? (cartesian frame).toJson .cartesian := ofJson?_record rfl hsound hdepth
        _ = some (cartesian frame) := by rw [ofShaped?, hframe, Option.map_some]

end Pose

end RobotPath
