import Linkage.Scene.Basic

/-!
# Building a scene

Nodes, drawn connections and springs are added and removed. A removed node takes along every spring
and connection at it. What is asked for and not there is a failure, except where something is to be
removed: then it is a warning and nothing happens.
-/

namespace Linkage.Scene

open Act

variable {K : Type} [Scalar K]

/-! ### Nodes -/

def needNode (k : Key) : Act K (Scene K) (Node K) := do
  match (← read).node? k with
  | some n => return n
  | none => fail (.noSuchNode k)

/-- A node at rest; gives its id. -/
def addNode (spot : Coords K) : Act K (Scene K) Id := do
  let p ← ofExcept spot.toPoint
  let i := (← read).graph.nextNode
  change (·.insertNode p)
  report (.nodeCreated (Node.new i p))
  return i

def putNode (k : Key) (spot : Coords K) : Act K (Scene K) Unit := do
  let n ← needNode k
  let p ← ofExcept spot.toPoint
  change (·.changeNode n.id (·.place p))

/-! ### Springs -/

def needSpring (k : Key) : Act K (Scene K) Ref := do
  match (← read).springRef? k with
  | some r => return r
  | none => fail (.noSuchSpring k)

def needNodes : List Key → Act K (Scene K) Unit :=
  forEach fun k => do
    let _ ← needNode k

/-- Lists a spring object and gives it a new id, unless it is listed under its id already. -/
def enterSpring (r : Ref) : Act K (Scene K) Unit := do
  let w ← read
  let s := w.spring r
  report (.springAdding s)
  match s.id with
  | some i => if w.springRef? (some i) = some r then fail (.springListed i)
  | none => pure ()
  needNodes s.endpoints
  change (·.enlist r)
  report (.springAdded w.graph.nextSpring)

/-- Makes a new spring and lists it; where it cannot be listed it is not made. -/
def enterNew (c : SpringSpec K) : Act K (Scene K) Ref := do
  let s ← ofExcept c.build
  report (.springAdding s)
  needNodes s.endpoints
  let w ← read
  let r := w.springs.fresh
  change fun w => (w.makeSpring s).enlist r
  report (.springAdded w.graph.nextSpring)
  return r

def deleteSpring (k : Key) : Act K (Scene K) Unit := do
  let w ← read
  match k, w.springRef? k with
  | some i, some r => do
    change (·.delist i)
    report (.springRemoved (w.spring r))
  | _, _ => report (.springAbsent k)

def deleteListed (r : Ref) : Act K (Scene K) Unit := do
  deleteSpring ((← read).spring r).id

/-- The constants for springs of a kind. That they are numbers is not asked for yet. -/
def constants (kind : SpringKind) : Act K (Scene K) (Option (Constants K)) := do
  return (← read).graph.config.constants kind

/-- Holds a node to a point, which is where the node is unless it is said. -/
def pin (k : Key) (spot : Option (Coords K)) : Act K (Scene K) Ref := do
  let p ← match spot with
    | some c => pure c
    | none => do
      let n ← needNode k
      pure (Coords.ofPoint n.position)
  let c ← constants .affix
  enterNew (.affix c k (some p))

def tie (a b : Key) (lower upper : Option (Number K)) : Act K (Scene K) Ref := do
  let c ← constants .distance
  enterNew (.distance c a b lower upper)

def follow (k : Key) (spot : Option (Coords K)) : Act K (Scene K) Ref := do
  let c ← constants .followPencil
  enterNew (.followPencil c k spot)

def movePoint (r : Ref) (spot : Coords K) : Act K (Scene K) Unit := do
  let s ← ofExcept (((← read).spring r).movePoint spot.toPoint)
  change (·.setSpring r s)

def boundSpring (r : Ref) (lower upper : Option (Number K)) : Act K (Scene K) Unit :=
  change (·.changeSpring r (·.withBounds lower upper))

def expire (r : Ref) : Act K (Scene K) Unit :=
  change (·.changeSpring r fun s => { s with expired := true })

/-! ### Connections -/

/-- Draws a line between two nodes; gives the line that was there already, if one was. -/
def connect (k l : Key) : Act K (Scene K) Connection := do
  if k = l then fail .selfConnection
  let a ← needNode k
  let b ← needNode l
  let c ← ofExcept (Connection.between a.id b.id)
  match (← read).graph.connections.find? fun d => d.sameLine c with
  | some d => return d
  | none =>
    change (·.insertConnection c)
    report (.connectionAdded c)
    return c

def disconnect (k l : Key) : Act K (Scene K) Unit := change (·.eraseConnection k l)

/-! ### Removing a node -/

def deleteNode (k : Key) : Act K (Scene K) Unit := do
  report (.nodeRemoving k)
  let w ← read
  if w.isNode k then
    forEach deleteListed (w.touching k)
    change (·.eraseNode k)
    report (.nodeRemoved k)
  else report (.nodeAbsent k)

/-! ### Listing -/

def list : Act K (Scene K) Unit := do
  let w ← read
  report (.heading .graph)
  report (.heading .nodes)
  forEach (fun n => report (.listedNode n)) w.graph.nodes
  report (.heading .springs)
  forEach (fun s => report (.listedSpring s)) w.members
  report (.heading .connections)
  forEach (fun c => report (.listedConnection c)) w.graph.connections
  report (.heading .close)

end Linkage.Scene
