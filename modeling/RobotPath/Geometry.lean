/-!
# Points and their placement

Positions and orientations as triples of doubles, and the map that carries the
points of a path from the frame they were drawn in to the frame of the
controller. The order of every sum and product below is fixed, because rounding
makes another order another number.
-/

namespace RobotPath

/-- Three components: a position, or an orientation as the angles A, B and C. -/
structure Vec3 where
  x : Float
  y : Float
  z : Float
deriving BEq, Repr, DecidableEq, Inhabited

namespace Vec3

def zero : Vec3 := ⟨0, 0, 0⟩

/-- The same number three times. -/
def splat (v : Float) : Vec3 := ⟨v, v, v⟩

def toList (v : Vec3) : List Float := [v.x, v.y, v.z]

/-- Whether no component is infinite or not a number. -/
def isFinite (v : Vec3) : Bool := v.x.isFinite && v.y.isFinite && v.z.isFinite

def add (a b : Vec3) : Vec3 := ⟨a.x + b.x, a.y + b.y, a.z + b.z⟩

def mul (a b : Vec3) : Vec3 := ⟨a.x * b.x, a.y * b.y, a.z * b.z⟩

/-- Every component times a number. -/
def scale (v : Vec3) (factor : Float) : Vec3 := v.mul (splat factor)

end Vec3

/-- A rotation as four components, taken as given and not normalised. -/
structure Quaternion where
  x : Float
  y : Float
  z : Float
  w : Float
deriving BEq, Repr, DecidableEq, Inhabited

/-- A linear map by its columns, followed by an offset. -/
structure Affine3 where
  xAxis : Vec3
  yAxis : Vec3
  zAxis : Vec3
  offset : Vec3
deriving BEq, Repr, DecidableEq, Inhabited

namespace Affine3

def identity : Affine3 := ⟨⟨1, 0, 0⟩, ⟨0, 1, 0⟩, ⟨0, 0, 1⟩, Vec3.zero⟩

/-- The image of a point. The columns are summed in order and the offset
comes last. -/
def apply (a : Affine3) (p : Vec3) : Vec3 :=
  (((a.xAxis.scale p.x).add (a.yAxis.scale p.y)).add (a.zAxis.scale p.z)).add a.offset

/-- Scales along the axes, then rotates, then shifts. -/
def ofScaleRotationOffset (scale : Vec3) (q : Quaternion) (offset : Vec3) : Affine3 :=
  let x2 := q.x + q.x
  let y2 := q.y + q.y
  let z2 := q.z + q.z
  let xx := q.x * x2
  let xy := q.x * y2
  let xz := q.x * z2
  let yy := q.y * y2
  let yz := q.y * z2
  let zz := q.z * z2
  let wx := q.w * x2
  let wy := q.w * y2
  let wz := q.w * z2
  { xAxis := Vec3.scale ⟨1 - (yy + zz), xy + wz, xz - wy⟩ scale.x
    yAxis := Vec3.scale ⟨xy - wz, 1 - (xx + zz), yz + wx⟩ scale.y
    zAxis := Vec3.scale ⟨xz + wy, yz - wx, 1 - (xx + yy)⟩ scale.z
    offset }

def toList (a : Affine3) : List Float :=
  a.xAxis.toList ++ a.yAxis.toList ++ a.zAxis.toList ++ a.offset.toList

end Affine3

/-- Carries local positions into the frame of the controller: the affine map
first, then one factor for each axis, usually metres to millimetres. -/
structure Placement where
  affine : Affine3
  unitScale : Vec3
deriving BEq, Repr, DecidableEq, Inhabited

namespace Placement

/-- Keeps every finite point in its place; only a negative zero loses its sign. -/
def identity : Placement := ⟨Affine3.identity, Vec3.splat 1⟩

/-- An affine map that is drawn in metres. -/
def metersToMillimeters (affine : Affine3) : Placement := ⟨affine, Vec3.splat 1000⟩

/-- Scale, rotation and offset in the units of the controller. -/
def ofScaleRotationOffset (scale : Vec3) (rotation : Quaternion) (offset : Vec3) :
    Placement :=
  ⟨Affine3.ofScaleRotationOffset scale rotation offset, Vec3.splat 1⟩

/-- The position of a local point in the frame of the controller. -/
def apply (t : Placement) (p : Vec3) : Vec3 := (t.affine.apply p).mul t.unitScale

end Placement

end RobotPath
