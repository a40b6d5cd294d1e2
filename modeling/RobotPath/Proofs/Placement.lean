import RobotPath.Geometry
import RobotPath.Proofs.Decimal.Neutral

/-!
# Where points are placed

Without a rotation a placement works on each axis by itself: it scales the coordinate,
shifts it, and turns it into the units of the controller. So a path that was drawn in place,
in metres, has every coordinate times a thousand. All this is up to the sign of a zero.
-/

namespace RobotPath

open Reading (IsZero)

/-- Points with coordinates that are alike. -/
structure Vec3.Alike (a b : Vec3) : Prop where
  x : Reading.Alike a.x b.x
  y : Reading.Alike a.y b.y
  z : Reading.Alike a.z b.z

namespace Vec3

theorem Alike.trans {a b c : Vec3} (h : a.Alike b) (h' : b.Alike c) : a.Alike c :=
  ⟨h.x.trans h'.x, h.y.trans h'.y, h.z.trans h'.z⟩

theorem Alike.add_right {a b : Vec3} (h : a.Alike b) (c : Vec3) : (a.add c).Alike (b.add c) :=
  ⟨h.x.add_right c.x, h.y.add_right c.y, h.z.add_right c.z⟩

theorem Alike.mul_right {a b : Vec3} (h : a.Alike b) (c : Vec3) : (a.mul c).Alike (b.mul c) :=
  ⟨h.x.mul_right c.x, h.y.mul_right c.y, h.z.mul_right c.z⟩

theorem add_zero (v : Vec3) : (v.add zero).Alike v :=
  ⟨.add_zero (.inl rfl) v.x, .add_zero (.inl rfl) v.y, .add_zero (.inl rfl) v.z⟩

theorem splat_one_mul (v : Vec3) : (splat 1).mul v = v := by
  rw [mul, splat, Reading.one_mul, Reading.one_mul, Reading.one_mul]

theorem mul_splat_one (v : Vec3) : v.mul (splat 1) = v := by
  rw [mul, splat, Reading.mul_one, Reading.mul_one, Reading.mul_one]

end Vec3

/-- The rotation that turns nothing. -/
def Quaternion.identity : Quaternion := ⟨0, 0, 0, 1⟩

namespace Affine3

/-- Without a rotation every column has one entry that is not a zero. -/
theorem ofScaleRotationOffset_identity (scale offset : Vec3) :
    ofScaleRotationOffset scale .identity offset =
      { xAxis := Vec3.scale ⟨1, 0, 0⟩ scale.x
        yAxis := Vec3.scale ⟨0, 1, 0⟩ scale.y
        zAxis := Vec3.scale ⟨0, 0, 1⟩ scale.z
        offset } := by
  rfl

/-- Without a rotation a point is scaled along each axis and then shifted. -/
theorem apply_unrotated {scale p : Vec3} (hscale : scale.isFinite = true)
    (hp : p.isFinite = true) (offset : Vec3) :
    ((ofScaleRotationOffset scale .identity offset).apply p).Alike
      ((scale.mul p).add offset) := by
  simp only [Vec3.isFinite, Bool.and_eq_true] at hscale hp
  have hzero {s x : Float} (hs : s.isFinite = true) (hx : x.isFinite = true) :
      IsZero (0 * s * x) := IsZero.mul (IsZero.mul (.inl rfl) hs) hx
  have hx := hzero hscale.1.1 hp.1.1
  have hy := hzero hscale.1.2 hp.1.2
  have hz := hzero hscale.2 hp.2
  rw [ofScaleRotationOffset_identity]
  apply Vec3.Alike.add_right
  simp only [Vec3.scale, Vec3.mul, Vec3.add, Vec3.splat, Reading.one_mul]
  constructor
  · exact (Reading.Alike.add_zero hz _).trans (.add_zero hy _)
  · exact (Reading.Alike.add_zero hz _).trans (hx.add_alike _)
  · exact ((hx.add_alike _).add_right _).trans (hy.add_alike _)

theorem apply_identity {p : Vec3} (hp : p.isFinite = true) : (identity.apply p).Alike p := by
  have hidentity : identity = ofScaleRotationOffset (Vec3.splat 1) .identity Vec3.zero := by rfl
  have hone : (Vec3.splat 1).isFinite = true := by decide
  rw [hidentity]
  apply (apply_unrotated hone hp Vec3.zero).trans
  rw [Vec3.splat_one_mul]
  exact p.add_zero

end Affine3

namespace Placement

/-- A placement that only scales and shifts treats each axis by itself. -/
theorem apply_unrotated {scale p : Vec3} (hscale : scale.isFinite = true)
    (hp : p.isFinite = true) (offset unitScale : Vec3) :
    ((⟨.ofScaleRotationOffset scale .identity offset, unitScale⟩ : Placement).apply p).Alike
      (((scale.mul p).add offset).mul unitScale) :=
  (Affine3.apply_unrotated hscale hp offset).mul_right unitScale

/-- What is drawn in place, in other units, is scaled to the units of the controller. -/
theorem apply_identity {p : Vec3} (hp : p.isFinite = true) (unitScale : Vec3) :
    ((⟨.identity, unitScale⟩ : Placement).apply p).Alike (p.mul unitScale) :=
  (Affine3.apply_identity hp).mul_right unitScale

/-- What is drawn in place, in the units of the controller, stays where it is. -/
theorem identity_apply {p : Vec3} (hp : p.isFinite = true) : (identity.apply p).Alike p := by
  have h := apply_identity hp (Vec3.splat 1)
  rwa [Vec3.mul_splat_one] at h

/-- A negative zero loses its sign. -/
example : (metersToMillimeters .identity).apply ⟨0.25, -2, -0⟩ = ⟨250, -2000, 0⟩ := by
  decide +kernel

end Placement

end RobotPath
