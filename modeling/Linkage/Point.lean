import Linkage.Scalar

/-!
# Points and vectors of the plane

Points and vectors share one type. `project` takes a point to the nearest point of a line or of a
segment; `along` is where on the line that is, measured from its first point.
-/

namespace Linkage

structure Point (K : Type) where
  x : K
  y : K
deriving Repr, DecidableEq, Inhabited

namespace Point

variable {K : Type} [Scalar K]

def zero : Point K := ⟨0.0, 0.0⟩

instance : Add (Point K) := ⟨fun a b => ⟨a.x + b.x, a.y + b.y⟩⟩
instance : Sub (Point K) := ⟨fun a b => ⟨a.x - b.x, a.y - b.y⟩⟩
instance : Neg (Point K) := ⟨fun a => ⟨-a.x, -a.y⟩⟩
instance : HMul K (Point K) (Point K) := ⟨fun s v => ⟨s * v.x, s * v.y⟩⟩
instance : HDiv (Point K) K (Point K) := ⟨fun v s => ⟨v.x / s, v.y / s⟩⟩

def dot (a b : Point K) : K := a.x * b.x + a.y * b.y

def length (v : Point K) : K := Scalar.hypot v.x v.y

def distance (a b : Point K) : K := Scalar.hypot (b.x - a.x) (b.y - a.y)

def angle (a b : Point K) : K := Scalar.atan2 (b.y - a.y) (b.x - a.x)

/-- The vector of length one at an angle against the first axis. -/
def ofAngle (t : K) : Point K := ⟨Scalar.cos t, Scalar.sin t⟩

/-- The vector of length one along `v`, or zero where `v` has no length. -/
def unit (v : Point K) : Point K :=
  if v.length < Scalar.tiny then zero else v / v.length

/-- `v` turned a quarter to the left. -/
def perp (v : Point K) : Point K := ⟨-v.y, v.x⟩

def midpoint (a b : Point K) : Point K := (0.5 : K) * (a + b)

/-- The signed distance from `a` to the foot of `p` on the line from `a` to `b`. -/
def along (p a b : Point K) : K :=
  let d := b - a
  if d.length < Scalar.tiny then 0.0 else dot (p - a) d / d.length

/-- The point nearest to `p` on the line through `a` and `b`, or on the segment between them when
`clamped`. Where the two are one point it is `a`. -/
def project (p a b : Point K) (clamped : Bool) : Point K :=
  let d := b - a
  let l := d.length
  if l < Scalar.tiny then a
  else
    let t := dot (p - a) d / l
    let t := if clamped then Scalar.clamp 0.0 l t else t
    a + t * (d / l)

def same (a b : Point K) : Bool := Scalar.same a.x b.x && Scalar.same a.y b.y

end Point

end Linkage
