import Billiard.Scalar

/-!
Vectors of the plane. Points are vectors from the origin. Every operation keeps the order in which
its parts are computed, so that machine numbers round the same way each time.
-/

namespace Billiard

open Scalar (negligible)

/-- A point or a displacement. -/
structure Vec (K : Type) where
  x : K
  y : K
deriving BEq, Repr

namespace Vec

variable {K : Type} [Scalar K]

instance : Add (Vec K) := ⟨fun v w => ⟨v.x + w.x, v.y + w.y⟩⟩

instance : Sub (Vec K) := ⟨fun v w => ⟨v.x - w.x, v.y - w.y⟩⟩

instance : HMul (Vec K) K (Vec K) := ⟨fun v s => ⟨v.x * s, v.y * s⟩⟩

instance : HDiv (Vec K) K (Vec K) := ⟨fun v s => ⟨v.x / s, v.y / s⟩⟩

@[simp] theorem add_x (v w : Vec K) : (v + w).x = v.x + w.x := rfl

@[simp] theorem add_y (v w : Vec K) : (v + w).y = v.y + w.y := rfl

@[simp] theorem sub_x (v w : Vec K) : (v - w).x = v.x - w.x := rfl

@[simp] theorem sub_y (v w : Vec K) : (v - w).y = v.y - w.y := rfl

@[simp] theorem mul_x (v : Vec K) (s : K) : (v * s).x = v.x * s := rfl

@[simp] theorem mul_y (v : Vec K) (s : K) : (v * s).y = v.y * s := rfl

@[simp] theorem div_x (v : Vec K) (s : K) : (v / s).x = v.x / s := rfl

@[simp] theorem div_y (v : Vec K) (s : K) : (v / s).y = v.y / s := rfl

/-- The origin, and the displacement that moves nothing. -/
def zero : Vec K := ⟨0.0, 0.0⟩

/-- The inner product. -/
@[inline] def dot (v w : Vec K) : K := v.x * w.x + v.y * w.y

/-- The outer product: positive when `w` is counter-clockwise from `v`. -/
@[inline] def wedge (v w : Vec K) : K := v.x * w.y - v.y * w.x

/-- The square of the length. -/
@[inline] def normSq (v : Vec K) : K := v.dot v

/-- The length. -/
@[inline] def norm (v : Vec K) : K := Scalar.sqrt v.normSq

/-- The distance between two points. -/
def dist (p q : Vec K) : K := (q - p).norm

/-- The vector turned by a quarter, counter-clockwise. -/
@[inline] def quarterTurn (v : Vec K) : Vec K := ⟨-v.y, v.x⟩

/-- The vector of length one in the same direction, unless the length is negligible or not
finite. -/
def unit? (v : Vec K) : Option (Vec K) :=
  let length := v.norm
  if !Scalar.isFinite length ∨ length < negligible then none else some (v / length)

/-- The part of `v` along `axis`; nothing along an axis of negligible length. -/
def along (v axis : Vec K) : Vec K :=
  let lengthSq := axis.normSq
  if lengthSq < negligible then zero else axis * (v.dot axis / lengthSq)

/-- The angle between two vectors, from zero to half a turn, unless one of them is negligible. -/
def angle? (v w : Vec K) : Option K :=
  let scale := v.norm * w.norm
  if scale < negligible then none
  else some (Scalar.acos (Scalar.clamp (-1.0) 1.0 (v.dot w / scale)))

/-- The point `p` turned counter-clockwise by `angle` about `centre`. -/
def turnAbout (centre : Vec K) (angle : K) (p : Vec K) : Vec K :=
  let sin := Scalar.sin angle
  let cos := Scalar.cos angle
  let offset := p - centre
  centre + ⟨offset.x * cos - offset.y * sin, offset.x * sin + offset.y * cos⟩

end Vec

end Billiard
