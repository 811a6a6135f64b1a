import Linkage.Act
import Linkage.Arena

/-!
# Scenes

A graph lists nodes, springs and drawn connections and gives out their ids. It lists springs by
reference, for a spring is an object that outlives its removal and may stand in several graphs; a
scene is a graph together with the arena that holds the springs.

Here are the look-ups and the changes that an operation is made of; each change is a plain function
on scenes.
-/

namespace Linkage

structure Graph (K : Type) where
  config : Config K
  nodes : List (Node K) := []
  listed : List Ref := []
  connections : List Connection := []
  nextNode : Id := 0
  nextSpring : Id := 0

structure Scene (K : Type) where
  springs : Arena (Spring K)
  graph : Graph K

variable {K : Type} [Scalar K]

instance : Inhabited (Graph K) := ⟨{ config := default }⟩

namespace Scene

/-! ### Look-ups -/

def spring (w : Scene K) (r : Ref) : Spring K := w.springs.get r

def members (w : Scene K) : List (Spring K) := w.graph.listed.map w.spring

def node? (w : Scene K) (k : Key) : Option (Node K) := w.graph.nodes.find? fun n => some n.id == k

def isNode (w : Scene K) (k : Key) : Bool := (w.node? k).isSome

def springRef? (w : Scene K) (k : Key) : Option Ref :=
  w.graph.listed.find? fun r => (w.spring r).id == k

/-- The spring that an id stands for in sums of forces: the last one listed under it. -/
def springOf (w : Scene K) (i : Id) : Option (Spring K) :=
  w.members.reverse.find? fun s => s.id == some i

/-- The listed springs with an endpoint at a node. -/
def touching (w : Scene K) (k : Key) : List Ref :=
  w.graph.listed.filter fun r => (w.spring r).contains k

def position (w : Scene K) (k : Key) : Except (Failure K) (Point K) :=
  match w.node? k with
  | some n => .ok n.position
  | none => .error .endpointLost

def ends (w : Scene K) (s : Spring K) : Except (Failure K) (Point K × Point K) := do
  let a ← match s.a with
    | .point p => pure p
    | .node i => w.position (some i)
  let b ← w.position s.b
  return (a, b)

/-! ### Changes -/

def setSpring (w : Scene K) (r : Ref) (s : Spring K) : Scene K :=
  { w with springs := w.springs.set r s }

def changeSpring (w : Scene K) (r : Ref) (f : Spring K → Spring K) : Scene K :=
  w.setSpring r (f (w.spring r))

def makeSpring (w : Scene K) (s : Spring K) : Scene K := { w with springs := w.springs.alloc s }

def mapNodes (w : Scene K) (f : Node K → Node K) : Scene K :=
  { w with graph := { w.graph with nodes := w.graph.nodes.map f } }

def changeNode (w : Scene K) (i : Id) (f : Node K → Node K) : Scene K :=
  w.mapNodes fun n => if n.id = i then f n else n

def insertNode (w : Scene K) (p : Point K) : Scene K :=
  { w with graph :=
    { w.graph with
      nodes := w.graph.nodes ++ [Node.new w.graph.nextNode p]
      nextNode := w.graph.nextNode + 1 } }

def eraseNode (w : Scene K) (k : Key) : Scene K :=
  { w with graph :=
    { w.graph with
      nodes := w.graph.nodes.filter fun n => some n.id != k
      connections := w.graph.connections.filter fun c => !c.contains k } }

def insertConnection (w : Scene K) (c : Connection) : Scene K :=
  { w with graph := { w.graph with connections := w.graph.connections ++ [c] } }

def eraseConnection (w : Scene K) (k l : Key) : Scene K :=
  { w with graph :=
    { w.graph with connections := w.graph.connections.filter fun c => !c.joins k l } }

/-- The spring gets the next id, goes to the end of the list and is attached to its nodes. -/
def enlist (w : Scene K) (r : Ref) : Scene K :=
  let s := w.spring r
  let i := w.graph.nextSpring
  { springs := w.springs.set r { s with id := some i }
    graph :=
    { w.graph with
      nodes := w.graph.nodes.map fun n => if s.contains (some n.id) then n.attach i else n
      listed := w.graph.listed ++ [r]
      nextSpring := i + 1 } }

/-- Every spring of this id is struck from the list and detached from every node. -/
def delist (w : Scene K) (i : Id) : Scene K :=
  { w with graph :=
    { w.graph with
      listed := w.graph.listed.filter fun r => (w.spring r).id != some i
      nodes := w.graph.nodes.map fun n => n.detach i } }

end Scene

end Linkage
