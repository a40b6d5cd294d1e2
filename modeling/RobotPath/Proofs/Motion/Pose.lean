import RobotPath.Motion.Pose

/-!
# The numbers of a pose

A pose is finite when all of its numbers are, and it is shown with all of them.
-/

namespace RobotPath

/-- All numbers of a pose. -/
def Pose.toList : Pose → List Float
  | .joint angles => angles.toList
  | .cartesian frame => frame.toList

theorem AxisAngles.length_toList_le (angles : AxisAngles) : angles.toList.length ≤ 10 := by
  unfold toList
  cases angles.external <;> simp

/-- The fields of a pose are its numbers; there is a label for each of them. -/
theorem Pose.map_snd_fields (pose : Pose) : pose.fields.map Prod.snd = pose.toList := by
  cases pose with
  | cartesian frame => rfl
  | joint angles =>
      rw [fields, AxisAngles.fields, List.map_snd_zip angles.length_toList_le]
      rfl

theorem Vec3.isFinite_iff (v : Vec3) : v.isFinite = true ↔ ∀ x ∈ v.toList, x.isFinite = true := by
  simp [isFinite, toList, and_assoc]

theorem Frame.isFinite_iff (frame : Frame) :
    frame.isFinite = true ↔ ∀ x ∈ frame.toList, x.isFinite = true := by
  rw [isFinite, Bool.and_eq_true, Vec3.isFinite_iff, Vec3.isFinite_iff, toList]
  exact List.forall_mem_append.symm

theorem Pose.isFinite_iff (pose : Pose) :
    pose.isFinite = true ↔ ∀ x ∈ pose.toList, x.isFinite = true := by
  cases pose with
  | joint angles => exact List.all_eq_true
  | cartesian frame => exact frame.isFinite_iff

end RobotPath
