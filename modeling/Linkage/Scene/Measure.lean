import Linkage.Scene.Edit

/-!
# Reading and keeping quantities

`Quantity.read` measures a quantity on a scene. `Quantity.impose` sets the springs that it owns to
keep it within given bounds: a distance by the bounds themselves, an angle by the chord between its
arms, a rail by the points where its captives are held.
-/

namespace Linkage.Quantity

open Act

variable {K : Type} [Scalar K]

def position (q : Quantity K) (w : Scene K) (i : Id) : Except (Failure K) (Point K) :=
  match w.node? (some i) with
  | some n => .ok n.position
  | none => .error (.nodeDeleted q.id i)

def arms (a b pivot : Point K) : K × K := (Point.distance pivot a, Point.distance pivot b)

def ends (q : Quantity K) (w : Scene K) : Except (Failure K) (Point K × Point K) := do
  match q.kind with
  | .lacking _ [] => throw .tooFewNodes
  | .lacking _ [a] => do
    let _ ← q.position w a
    throw .tooFewNodes
  | .lacking _ (a :: b :: _) => return (← q.position w a, ← q.position w b)
  | _ => return (← q.position w q.a, ← q.position w q.b)

/-- A distance, an angle in degrees, or how far along a rail its first captive is. -/
def read (q : Quantity K) (w : Scene K) : Except (Failure K) K := do
  let (a, b) ← q.ends w
  match q.kind with
  | .distance => return Point.distance a b
  | .angle i =>
    let p ← q.position w i
    let (l, m) := arms a b p
    return Triangle.angle l m (Point.distance a b)
  | .rail =>
    match q.captives with
    | [] => return 0.0
    | (c, _) :: _ => return Point.along (← q.position w c) a b
  | .unknown => throw .unknownKind
  | .lacking .. => throw .tooFewNodes

def labelPoint (q : Quantity K) (w : Scene K) : Except (Failure K) (Point K) := do
  let (a, b) ← q.ends w
  return Point.midpoint a b

def owned (q : Quantity K) (w : Scene K) : List Ref :=
  q.springIds.filterMap fun i => w.springRef? (some i)

def chord (arms : K × K) (angle : Option (Number K)) : Option (Number K) :=
  angle.map fun n => .real (Triangle.chord arms.1 arms.2 n.val)

/-- The spring that holds a captive is led to the rail; one that is gone is passed over. -/
def lead (q : Quantity K) (a b : Point K) (clamped : Bool) (captive spring : Id) :
    Act K (Scene K) Unit := do
  let w ← Act.read
  match w.springRef? (some spring) with
  | none => pure ()
  | some r => do
    let p ← ofExcept (q.position w captive)
    let (target, atEnd) := Rail.seat p a b clamped
    let s ← ofExcept ((w.spring r).movePoint (.ok target))
    change (·.setSpring r { s with railDirection := b - a, atRailEnd := atEnd })

/-- A rail takes no bounds; only a rail can end at its endpoints. -/
def impose (q : Quantity K) (lower upper : Option (Number K)) (clamped : Bool) :
    Act K (Scene K) Unit := do
  let w ← Act.read
  let (a, b) ← ofExcept (q.ends w)
  match q.kind with
  | .distance => forEach (Scene.boundSpring · lower upper) (q.owned w)
  | .angle i => do
    let p ← ofExcept (q.position w i)
    let l := arms a b p
    forEach (Scene.boundSpring · (chord l lower) (chord l upper)) (q.owned w)
  | .rail => forEach (fun c => q.lead a b clamped c.1 c.2) q.captives
  | .unknown => fail .unknownKind
  | .lacking .. => fail .tooFewNodes

end Linkage.Quantity
