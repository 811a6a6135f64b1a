import Linkage.Sketch.Declare

/-!
# Withdrawing quantities and keeping them up to date

A withdrawn quantity takes its springs along and opens every bound that refers to it. A node may be
deleted with the quantities over it, or directly from the scene; in that case `prune` withdraws what
was over it, before anything is read or refreshed.
-/

namespace Linkage.Sketch

open Act

variable {K : Type} [Scalar K]

def withdraw (k : Key) : Act K (Sketch K) Unit := do
  report (.quantityRemoving k)
  let w ← read
  match w.quantityRef? k with
  | none => report (.quantityAbsent k)
  | some r => do
    forEach (fun i => (Scene.deleteSpring (some i)).onScene) (w.quantity r).springIds
    change (·.changeQuantity r (·.disowned))
    change (·.strike k)
    report (.quantityRemoved k)

/-- Deletes a node with the quantities over it. A rail only lets it go as a captive. -/
def withdrawNode (k : Key) : Act K (Sketch K) Unit := do
  report (.nodeWithdrawing k)
  forEach (fun r => do
    let q := (← read).quantity r
    if q.isOver k then withdraw (some q.id)
    else if (q.springHolding? k).isSome then release (some q.id) k) (← read).declared
  (Scene.deleteNode k).onScene
  report (.nodeWithdrawn k)

/-- Withdraws a quantity that lost a node, or lets go the captives that are gone. -/
def pruneOne (r : Ref) : Act K (Sketch K) Unit := do
  let w ← read
  let q := w.quantity r
  if q.nodeIds.all fun i => w.isNode (some i) then
    forEach (fun c => do
      if (← read).isNode (some c) then pure () else release (some q.id) (some c))
      (q.captives.map Prod.fst)
  else
    report (.quantityDangling q.id)
    withdraw (some q.id)

def prune : Act K (Sketch K) Unit := do
  forEach pruneOne (← read).declared

def readingOf (k : Key) : Act K (Sketch K) K := do
  prune
  let r ← needQuantity k
  let w ← read
  ofExcept ((w.quantity r).read w.toScene)

/-- The value of a bound, after the quantities that lost a node are gone. -/
def valueNow (b : Option (Limit K)) : Act K (Sketch K) (Option (Number K)) := do
  prune
  valueOf b

/-- Sets the springs of all quantities, then moves the scene on by a frame if one is asked for. -/
def refresh (dt : Option K) : Act K (Sketch K) Unit := do
  prune
  forEach refreshOne (← read).declared
  match dt with
  | none => pure ()
  | some dt => (Scene.advance dt).onScene

end Linkage.Sketch
