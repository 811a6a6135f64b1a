import Linkage.Sketch.Basic

/-!
# Declaring quantities

A quantity is declared over nodes of the scene, with bounds that are numbers or other declared
quantities. Distances and angles own one spring between their first two nodes; a rail owns one
spring for each captive.
-/

namespace Linkage.Sketch

open Act

variable {K : Type} [Scalar K]

def needQuantity (k : Key) : Act K (Sketch K) Ref := do
  match (← read).quantityRef? k with
  | some r => return r
  | none => fail (.noSuchQuantity k)

/-- The node has to be one of the scene; gives its id. -/
def needOwnNode (k : Key) : Act K (Sketch K) Id := do
  match (← read).node? k with
  | some n => return n.id
  | none => fail (.foreignNode k)

/-! ### Bounds -/

/-- Angles are degrees, distances and rail positions are lengths. -/
def warnUnits (kind : QuantityKind) (q : Quantity K) : Act K (Sketch K) Unit :=
  if kind.isAngle != q.kind.isAngle then report (.unitsMixed kind q) else pure ()

def toBound (kind : QuantityKind) : BoundArg Ref K → Act K (Sketch K) (Option (Limit K))
  | .none => return none
  | .bound (.literal n) => return some (.literal n)
  | .bound (.reference i) => do
    let r ← needQuantity (some i)
    warnUnits kind ((← read).quantity r)
    return some (.reference i)
  | .quantity r => do
    let w ← read
    let q := w.quantity r
    if w.quantityRef? (some q.id) = some r then
      warnUnits kind q
      return some (.reference q.id)
    else fail (.foreignQuantity q.id)
  | .number n => return some (.literal (.real (← ofExcept n.measured)))
  | .other v => fail (.unsupportedBound v)

def valueOf : Option (Limit K) → Act K (Sketch K) (Option (Number K))
  | none => return none
  | some (.literal n) => return some n
  | some (.reference i) => do
    let w ← read
    match w.quantityRef? (some i) with
    | some r => return some (.real (← ofExcept ((w.quantity r).read w.toScene)))
    | none => do
      report (.referenceMissing i)
      return none

def refreshOne (r : Ref) : Act K (Sketch K) Unit := do
  let w ← read
  let q := w.quantity r
  let lower ← valueOf q.lower
  let upper ← valueOf q.upper
  (q.impose lower upper w.clamped).onScene

/-! ### Declaring -/

def nextId : Act K (Sketch K) Id := do
  let i := (← read).nextQuantity
  change passId
  return i

def enter (q : Quantity K) : Act K (Sketch K) Ref := do
  let r := (← read).quantities.fresh
  change fun w => (w.makeQuantity q).declare r
  refreshOne r
  report (.quantityAdded q)
  return r

/-- What is reported of a bound argument; a quantity of unknown kind cannot be named. -/
def shownBound (arg : BoundArg Ref K) : Act K (Sketch K) (BoundArg (Quantity K) K) := do
  let w ← read
  match arg.map w.quantity with
  | .quantity q => if q.kind.name?.isNone then fail .unnamedKind else return .quantity q
  | shown => return shown

/-- A new spring of the scene, between two nodes and without bounds; gives its id. -/
def addSpringBetween (a b : Id) : Act K (Sketch K) Id := do
  let i := (← read).graph.nextSpring
  let _ ← (Scene.tie (some a) (some b) none none).onScene
  return i

def declareDistance (a b : Key) (lower upper : BoundArg Ref K) : Act K (Sketch K) Ref := do
  report (.distanceAdding a b (← shownBound lower) (← shownBound upper))
  let a ← needOwnNode a
  let b ← needOwnNode b
  let lo ← toBound .distance lower
  let hi ← toBound .distance upper
  let i ← nextId
  let s ← addSpringBetween a b
  report .distanceAdded
  enter
    { id := i, kind := .distance, a := a, b := b, lower := lo, upper := hi, springIds := [s],
      captives := [] }

def declareAngle (a b pivot : Key) (lower upper : BoundArg Ref K) : Act K (Sketch K) Ref := do
  report (.angleAdding a b pivot (← shownBound lower) (← shownBound upper))
  let a ← needOwnNode a
  let b ← needOwnNode b
  let p ← needOwnNode pivot
  if p = a ∨ p = b then fail .pivotOnArm
  let lo ← toBound (.angle p) lower
  let hi ← toBound (.angle p) upper
  let i ← nextId
  let s ← addSpringBetween a b
  report .angleAdded
  enter
    { id := i, kind := .angle p, a := a, b := b, lower := lo, upper := hi, springIds := [s],
      captives := [] }

/-! ### Rails and captives -/

/-- Where a node has to be for a rail to hold something on it. -/
def railEnd (w : Sketch K) (i : Id) : Except (Failure K) (Point K) :=
  match w.node? (some i) with
  | some n => .ok n.position
  | none => .error .railEndLost

/-- Holds a node on a rail, where it is not held there yet. -/
def hold (rail node : Key) : Act K (Sketch K) Unit := do
  let r ← needQuantity rail
  let q := (← read).quantity r
  if q.kind ≠ .rail then fail (.notARail rail)
  let n ← needOwnNode node
  if q.isOver (some n) then fail .captiveOnRailEnd
  if (q.springHolding? (some n)).isSome then pure ()
  else
    let w ← read
    let a ← ofExcept (w.railEnd q.a)
    let b ← ofExcept (w.railEnd q.b)
    let p ← ofExcept (w.railEnd n)
    let (target, atEnd) := Rail.seat p a b w.clamped
    let c ← (Scene.constants .rail).onScene
    let s := w.graph.nextSpring
    let ref ← (Scene.enterNew (.rail c (some n) (some (Coords.ofPoint target))
      (some (Coords.ofPoint (b - a))))).onScene
    change fun w => w.withScene (w.changeSpring ref fun s => { s with atRailEnd := atEnd })
    change (·.changeQuantity r (·.hold n s))
    report (.captiveHeld node rail)

def needCaptives (a b : Id) : List Key → Act K (Sketch K) Unit :=
  forEach fun k => do
    let c ← needOwnNode k
    if c = a ∨ c = b then fail .captiveOnRailEnd

def declareRail (a b : Key) (captives : List Key) : Act K (Sketch K) Ref := do
  report (.railAdding a b captives)
  let a ← needOwnNode a
  let b ← needOwnNode b
  if a = b then fail .oneRailNode
  needCaptives a b captives
  let i ← nextId
  let r ← enter
    { id := i, kind := .rail, a := a, b := b, lower := none, upper := none, springIds := [],
      captives := [] }
  forEach (hold (some i)) captives
  report .railAdded
  return r

/-- Lets a captive go; a node that is not held is passed over. -/
def release (rail node : Key) : Act K (Sketch K) Unit := do
  let r ← needQuantity rail
  match ((← read).quantity r).springHolding? node with
  | none => pure ()
  | some s => do
    change (·.changeQuantity r (·.release node s))
    (Scene.deleteSpring (some s)).onScene
    report (.captiveReleased node rail)

/-! ### Changing bounds -/

def setLower (k : Key) (arg : BoundArg Ref K) : Act K (Sketch K) Unit := do
  let r ← needQuantity k
  let b ← toBound ((← read).quantity r).kind arg
  change (·.changeQuantity r fun q => { q with lower := b })

def setUpper (k : Key) (arg : BoundArg Ref K) : Act K (Sketch K) Unit := do
  let r ← needQuantity k
  let b ← toBound ((← read).quantity r).kind arg
  change (·.changeQuantity r fun q => { q with upper := b })

end Linkage.Sketch
