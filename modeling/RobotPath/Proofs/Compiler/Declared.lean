import RobotPath.Proofs.Compiler.Checks
import RobotPath.Proofs.Program.Pieces

/-!
# The numbers that a program declares

The home pose and the path speed are checked before they are declared. The other
numbers of the settings are not, and are printed whatever they are: so a program
declares numbers that a controller can read exactly when these happen to be finite.
-/

namespace RobotPath

theorem AxisAngles.map_snd_complete_fields (angles : AxisAngles) :
    angles.complete.fields.map Prod.snd = angles.complete.toList := by
  rw [fields, List.map_snd_zip]
  simp [complete, toList, axisLabels, externalLabels]

/-- A pose is described by its own numbers, and by zeros for the axes it lacks. -/
theorem Pose.isFinite_of_mem_describedFields {pose : Pose} (h : pose.isFinite = true) {x : Float}
    (hx : x ∈ pose.describedFields.map Prod.snd) : x.isFinite = true := by
  cases pose with
  | cartesian frame =>
      rw [isFinite, Frame.isFinite, Vec3.isFinite, Vec3.isFinite] at h
      simp only [Bool.and_eq_true] at h
      simp only [describedFields, Frame.fields, Frame.labels, Frame.toList, Vec3.toList,
        List.cons_append, List.nil_append, List.zip_cons_cons, List.zip_nil_right, List.map_cons,
        List.map_nil, List.mem_cons, List.not_mem_nil, or_false] at hx
      rcases hx with rfl | rfl | rfl | rfl | rfl | rfl <;> simp only [h]
  | joint angles =>
      rw [isFinite, AxisAngles.isFinite, AxisAngles.toList, List.all_eq_true] at h
      rw [describedFields, AxisAngles.map_snd_complete_fields, AxisAngles.toList,
        List.mem_append] at hx
      cases hx with
      | inl haxis => exact h x (List.mem_append_left _ haxis)
      | inr hexternal =>
          change x ∈ (angles.external.getD (Vector.replicate 4 0)).toList at hexternal
          cases hangles : angles.external with
          | none =>
              rw [hangles, Option.getD_none, Vector.toList_replicate] at hexternal
              rw [List.eq_of_mem_replicate hexternal]
              rfl
          | some external =>
              rw [hangles] at h hexternal
              exact h x (List.mem_append_right _ hexternal)

/-- The pieces that the declarations of a program are written from. -/
def Program.declaredPieces (p : Program) : List Piece :=
  p.declarations.flatMap Declaration.pieces

theorem Program.declarationText_eq_join_pieces (p : Program) :
    p.declarationText = Piece.join p.declaredPieces := by
  unfold declarationText declaredPieces
  induction p.declarations with
  | nil => rfl
  | cons d rest ih =>
      rw [List.map_cons, String.join_cons, ih, List.flatMap_cons, Piece.join_append,
        Declaration.text_eq_join_pieces]

namespace Config

/-- The numbers of the settings that are declared without a check. -/
def uncheckedNumbers (c : Config) : List Float :=
  [c.speedPercent, c.acceleration] ++
    c.tool.toList.flatMap (fun tool => tool.mass :: tool.centerOfMass.toList) ++
    c.base.toList.flatMap fun base => base.frame.toList

/-- All that is declared besides the unchecked numbers is the home pose and the path
speed. -/
theorem mem_declared_numbers_iff (c : Config) {x : Float} :
    x ∈ Piece.numbers (c.declarations.flatMap Declaration.pieces) ↔
      x ∈ c.uncheckedNumbers ∨ x ∈ c.home.describedFields.map Prod.snd ∨ x = c.pathSpeed := by
  have htool : Piece.numbers ((c.tool.map Declaration.tool).toList.flatMap Declaration.pieces) =
      c.tool.toList.flatMap fun tool => tool.mass :: tool.centerOfMass.toList := by
    cases c.tool with
    | none => rfl
    | some tool => rfl
  have hbase : Piece.numbers ((c.base.map Declaration.base).toList.flatMap Declaration.pieces) =
      c.base.toList.flatMap fun base => base.frame.toList := by
    cases c.base with
    | none => rfl
    | some base => rfl
  have hheader : Piece.numbers (Declaration.header c.programName).pieces = [] := rfl
  simp only [declarations, List.flatMap_append, List.flatMap_singleton, Piece.numbers_append,
    hheader, htool, hbase, Declaration.numbers_start, startSettings, uncheckedNumbers,
    List.mem_append, List.mem_cons, List.not_mem_nil, or_false, false_or]
  tauto

end Config

namespace Compiler

variable (c : Compiler) (path : Toolpath) {p : Program}

theorem declaredPieces_of_ok (h : (c.compile path).result = .ok p) :
    p.declaredPieces = c.config.declarations.flatMap Declaration.pieces := by
  obtain ⟨-, instructions, -, rfl⟩ := c.compile_eq_ok path h
  rfl

/-- The numbers that a compiled program declares are those of its pieces, and a number can
be read exactly when it is finite. All of them are exactly when the unchecked ones are. -/
theorem declared_numbers_finite_iff (h : (c.compile path).result = .ok p) :
    p.declarationText = Piece.join p.declaredPieces ∧
      (∀ piece ∈ p.declaredPieces, ∀ x, piece.number? = some x →
        ((Decimal.denoted? piece.text).isSome = true ↔ x.isFinite = true)) ∧
      ((∀ x ∈ Piece.numbers p.declaredPieces, x.isFinite = true) ↔
        ∀ x ∈ c.config.uncheckedNumbers, x.isFinite = true) := by
  refine ⟨p.declarationText_eq_join_pieces, fun _ _ _ hx => Piece.isSome_denoted?_text hx, ?_⟩
  rw [c.declaredPieces_of_ok path h]
  constructor
  · intro hall x hx
    exact hall x (c.config.mem_declared_numbers_iff.mpr (.inl hx))
  · intro hunchecked x hx
    rcases c.config.mem_declared_numbers_iff.mp hx with hx | hx | rfl
    · exact hunchecked x hx
    · exact Pose.isFinite_of_mem_describedFields (c.isFinite_home_of_ok path h) hx
    · exact Config.isFinite_of_isSpeed (c.isSpeed_pathSpeed_of_ok path h)

theorem declared_numbers_finite_equipped :
    ∃ p, (equipped.compile (pathSetting "A")).result = .ok p ∧
      equipped.config.uncheckedNumbers = [15, 100, 2.5, 0, 0, 40, 800, 0, 250, 0, 0, 45] ∧
      ∀ x ∈ Piece.numbers p.declaredPieces, x.isFinite = true := by
  obtain ⟨p, hresult⟩ := exists_ok_of_isOk equipped (pathSetting "A") (by decide +kernel)
  obtain ⟨-, -, hfinite⟩ := declared_numbers_finite_iff equipped _ hresult
  have hunchecked : equipped.config.uncheckedNumbers =
      [15, 100, 2.5, 0, 0, 40, 800, 0, 250, 0, 0, 45] := by rfl
  refine ⟨p, hresult, hunchecked, hfinite.mpr ?_⟩
  rw [hunchecked]
  decide +kernel

/-- The usual settings, but for an override that is not a number. -/
def withoutOverride : Compiler :=
  { standard with config := { Config.standard with speedPercent := 0 / 0 } }

/-- An override that is not a number is declared as `NaN`. -/
theorem not_declared_numbers_finite :
    ∃ p, (withoutOverride.compile (pathSetting "A")).result = .ok p ∧
      ∃ piece ∈ p.declaredPieces, ∃ x, piece.number? = some x ∧ x.isFinite = false ∧
        piece.text = "NaN" := by
  obtain ⟨p, hresult⟩ := exists_ok_of_isOk withoutOverride (pathSetting "A") (by decide +kernel)
  refine ⟨p, hresult, .plain (0 / 0), ?_, 0 / 0, rfl, by decide +kernel, by decide +kernel⟩
  rw [withoutOverride.declaredPieces_of_ok _ hresult]
  refine List.mem_flatMap.mpr ⟨_, List.mem_append_right _ (List.mem_singleton.mpr rfl), ?_⟩
  simp [Declaration.pieces, Piece.ofLines, Config.startSettings, withoutOverride]

end Compiler

end RobotPath
