import Linkage.Failure

/-!
# Connections

A `Connection` is a drawn line between two different nodes; two connections are the same line when
they join the same two nodes, in either order. `Connection.between` is the one way to draw one.
-/

namespace Linkage

structure Connection where
  a : Id
  b : Id
  ne : a ≠ b
deriving Repr, DecidableEq

namespace Connection

/-- A node cannot be connected to itself. -/
def between {K : Type} (a b : Id) : Except (Failure K) Connection :=
  if h : a = b then .error .selfConnection else .ok ⟨a, b, h⟩

theorem between_of_ne {K : Type} {a b : Id} (h : a ≠ b) :
    (between a b : Except (Failure K) Connection) = .ok ⟨a, b, h⟩ := dif_neg h

def contains (c : Connection) (k : Key) : Bool := some c.a == k || some c.b == k

/-- Joins the two nodes that these keys name, in either order. -/
def joins (c : Connection) (k l : Key) : Bool :=
  (some c.a == k && some c.b == l) || (some c.a == l && some c.b == k)

def sameLine (c d : Connection) : Bool := c.joins (some d.a) (some d.b)

def ends (c : Connection) : Id × Id := (min c.a c.b, max c.a c.b)

instance : Hashable Connection := ⟨fun c => hash c.ends⟩

end Connection

end Linkage
