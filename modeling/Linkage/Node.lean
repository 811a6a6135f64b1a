import Linkage.Spring

/-!
# Nodes

A node is a point of unit mass with a velocity. It keeps the ids of the springs at it, in the order
they came; the springs themselves say which nodes they join.
-/

namespace Linkage

structure Node (K : Type) where
  id : Id
  position : Point K
  velocity : Point K
  springIds : List Id

namespace Node

variable {K : Type} [Scalar K]

def new (id : Id) (p : Point K) : Node K := ⟨id, p, Point.zero, []⟩

/-- At the end of the list, unless it is there. -/
def attach (n : Node K) (i : Id) : Node K :=
  if i ∈ n.springIds then n else { n with springIds := n.springIds ++ [i] }

def detach (n : Node K) (i : Id) : Node K := { n with springIds := n.springIds.erase i }

/-- Moved to a point and at rest there. -/
def place (n : Node K) (p : Point K) : Node K := { n with position := p, velocity := Point.zero }

/-- Friction and the forces of the springs at the node, in the order of its list. An id that
`springOf` does not know adds nothing. -/
def netForce (n : Node K) (springOf : Id → Option (Spring K)) (friction : K) : Point K :=
  n.springIds.foldl
    (fun f i => match springOf i with
      | some s => f + s.forceAt (some n.id)
      | none => f)
    (-friction * n.velocity)

/-- One step of length `h` under a force: the velocity changes first and moves the node. -/
def step (n : Node K) (force : Point K) (h : K) : Node K :=
  let v := n.velocity + h * force
  { n with velocity := v, position := n.position + h * v }

def moved (n : Node K) (springOf : Id → Option (Spring K)) (friction h : K) : Node K :=
  n.step (n.netForce springOf friction) h

end Node

end Linkage
