import Linkage.Coords

/-!
# Damped springs

A spring runs from endpoint A, a node or a fixed point, to endpoint B, always a node. Within its
bounds it is slack. Outside them its displacement is the distance to the violated bound, capped, and

    force = -damping · (change of displacement per time) - stiffness · displacement

acts along the spring, on B forwards and on A backwards. A rail spring acts across the rail only,
except on a captive that is held at the rail's end.

`SpringSpec.build` makes a spring; `relaxed` starts a frame. In a sub-step `displaced` finds out how
far the spring is out of its bounds, and `loaded` computes the force. Only the force needs constants
that are numbers.
-/

namespace Linkage

inductive Anchor (K : Type) where
  | point (p : Point K)
  | node (id : Id)

/-- What a spring carries from one sub-step to the next. -/
structure Strain (K : Type) where
  displacement : K
  previous : K
  rate : K
  force : K
  direction : Point K

structure Spring (K : Type) where
  /-- Given by the graph that the spring was last added to. -/
  id : Key
  kind : SpringKind
  a : Anchor K
  b : Key
  /-- None where they are not both numbers. -/
  constants : Option (Constants K)
  lower : Option (Number K)
  upper : Option (Number K)
  temporary : Bool
  /-- To be removed at the end of the next frame. -/
  expired : Bool
  railDirection : Point K
  /-- The captive is held at the rail's end, where the full pull applies. -/
  atRailEnd : Bool
  strain : Strain K

variable {K : Type} [Scalar K]

def Strain.none : Strain K := ⟨0.0, 0.0, 0.0, 0.0, Point.zero⟩

namespace Anchor

def key : Anchor K → Key
  | point _ => none
  | node i => some i

def literal? : Anchor K → Option (Point K)
  | point p => some p
  | node _ => none

/-- The same node, or points with the same coordinates. -/
def same : Anchor K → Anchor K → Bool
  | point p, point q => p.same q
  | node i, node j => i == j
  | _, _ => false

end Anchor

/-- Division as the solver does it: there is no division by zero. -/
def divide (x y : K) : Except (Failure K) K :=
  if Scalar.isZero y then .error .divisionByZero else .ok (x / y)

namespace Spring

instance : Inhabited (Spring K) where
  default :=
    { id := none, kind := .affix, a := .point Point.zero, b := none, constants := none,
      lower := none, upper := none, temporary := false, expired := false,
      railDirection := Point.zero, atRailEnd := false, strain := Strain.none }

/-! ### Endpoints -/

def endpoints (s : Spring K) : List Key :=
  match s.a with
  | .point _ => [s.b]
  | .node i => [some i, s.b]

def contains (s : Spring K) (k : Key) : Bool := s.endpoints.contains k

def sameEnds (s t : Spring K) : Bool := s.b == t.b && s.a.same t.a

/-- Moves the fixed point; `p` is looked at only where there is one to move. -/
def movePoint (s : Spring K) (p : Except (Failure K) (Point K)) :
    Except (Failure K) (Spring K) :=
  match s.a with
  | .node _ => .error (.noLiteralPoint s.id)
  | .point _ => p.map fun q => { s with a := .point q }

def withBounds (s : Spring K) (lower upper : Option (Number K)) : Spring K :=
  { s with lower := lower, upper := upper }

/-! ### Force -/

def excess (s : Spring K) (l : K) : K :=
  match s.upper with
  | some m => if m.val < l then l - m.val else 0.0
  | none => 0.0

/-- How far a length is outside the bounds, negative below them; the lower bound is looked at
first. -/
def displacementAt (s : Spring K) (l : K) : K :=
  match s.lower with
  | some m => if l < m.val then l - m.val else s.excess l
  | none => s.excess l

def cappedAt (s : Spring K) (l cap : K) : K :=
  Scalar.clamp (-cap) cap (s.displacementAt l)

def isWithin (s : Spring K) (a b : Point K) (tolerance : K) : Bool :=
  decide (Scalar.abs (s.displacementAt (Point.distance a b)) ≤ tolerance)

/-- At the start of a frame the displacement counts as unchanging. -/
def relaxed (s : Spring K) (a b : Point K) (cap : K) : Spring K :=
  let d := s.cappedAt (Point.distance a b) cap
  { s with strain := { s.strain with displacement := d, previous := d, rate := 0.0, force := 0.0 } }

/-- The displacement in a sub-step, and how fast it changes. -/
def displaced (s : Spring K) (a b : Point K) (h cap : K) : Except (Failure K) (Spring K) := do
  let d := s.cappedAt (Point.distance a b) cap
  let rate ← divide (d - s.strain.previous) h
  return { s with strain := { s.strain with displacement := d, previous := d, rate := rate } }

/-- The force in a sub-step, once the spring is displaced. Endpoints in one place give no direction
and no force. -/
def loaded (s : Spring K) (a b : Point K) : Except (Failure K) (Spring K) :=
  if Point.distance a b < Scalar.tiny then
    return { s with strain := { s.strain with force := 0.0, direction := Point.zero } }
  else do
    let c ← asNumber s.constants
    return { s with strain := { s.strain with
      force := -c.damping * s.strain.rate - c.stiffness * s.strain.displacement
      direction := Point.ofAngle (Point.angle a b) } }

def pull (s : Spring K) : Point K :=
  let f := s.strain.force * s.strain.direction
  if s.kind = .rail ∧ s.atRailEnd = false then
    let normal := Point.unit s.railDirection.perp
    Point.dot f normal * normal
  else f

def forceAt (s : Spring K) (k : Key) : Point K :=
  if k = s.b then s.pull
  else if k = s.a.key then -s.pull
  else Point.zero

end Spring

structure SpringSpec (K : Type) where
  kind : SpringKind
  constants : Option (Constants K)
  a : Key := none
  point : Option (Coords K) := none
  b : Key
  lower : Option (Number K) := none
  upper : Option (Number K) := none
  temporary : Bool := false
  direction : Option (Coords K) := none

namespace SpringSpec

/-- Endpoint A has to be a node other than B, or a point. -/
def build (c : SpringSpec K) : Except (Failure K) (Spring K) := do
  let a ← match c.a, c.point with
    | none, some p => p.toPoint.map Anchor.point
    | some i, none => if some i = c.b then throw .selfConnection else pure (Anchor.node i)
    | _, _ => throw .oneEndpoint
  let direction ← match c.direction with
    | none => pure Point.zero
    | some d => d.toPoint
  return { id := none, kind := c.kind, a := a, b := c.b, constants := c.constants,
           lower := c.lower, upper := c.upper, temporary := c.temporary, expired := false,
           railDirection := direction, atRailEnd := false, strain := Strain.none }

/-- A spring of no length, between a node and a point. -/
def held (kind : SpringKind) (constants : Option (Constants K)) (b : Key) (p : Option (Coords K)) :
    SpringSpec K :=
  { kind := kind, constants := constants, point := p, b := b, lower := some (.real 0.0),
    upper := some (.real 0.0) }

def affix (constants : Option (Constants K)) (b : Key) (p : Option (Coords K)) : SpringSpec K :=
  held .affix constants b p

def distance (constants : Option (Constants K)) (a b : Key) (lower upper : Option (Number K)) :
    SpringSpec K :=
  { kind := .distance, constants := constants, a := a, b := b, lower := lower, upper := upper }

/-- Draws a node after the pencil, for one drag. -/
def followPencil (constants : Option (Constants K)) (b : Key) (p : Option (Coords K)) :
    SpringSpec K :=
  { held .followPencil constants b p with temporary := true }

/-- Holds a node on a rail of the given direction. -/
def rail (constants : Option (Constants K)) (b : Key) (p direction : Option (Coords K)) :
    SpringSpec K :=
  { held .rail constants b p with direction := direction }

end SpringSpec

end Linkage
