import Linkage.Node
import Linkage.Rail
import Linkage.Triangle

/-!
# Declared quantities

A quantity is a distance, an angle or a rail declared over nodes of a scene. Its bounds are numbers
or other quantities. It owns springs of the scene, which keep what it declares.

A sketch declares quantities over as many nodes as their kind has. An object made outside of one may
be over more, which are kept and not used, or over fewer, and then it cannot be read.
-/

namespace Linkage

inductive QuantityKind where
  | distance
  /-- The angle at a pivot, in degrees. -/
  | angle (pivot : Id)
  | rail
  /-- Nothing that can be read or kept. -/
  | unknown
  /-- Over fewer nodes than a quantity of this name has; these are all of them. -/
  | lacking (name : Option String) (nodes : List Id)
deriving Repr, DecidableEq

def QuantityKind.name? : QuantityKind → Option String
  | distance => some "distance"
  | angle _ => some "angle"
  | rail => some "rail"
  | unknown => none
  | lacking name _ => name

def QuantityKind.isAngle (k : QuantityKind) : Bool := k.name? == some "angle"

/-- A bound is a value by itself, or a reference to what is read for it. -/
inductive Bound (ρ α : Type) where
  | literal (v : α)
  | reference (r : ρ)

namespace Bound

variable {K ρ α : Type}

def reference? : Bound ρ α → Option ρ
  | literal _ => none
  | reference r => some r

def make (value : Option α) (ref : Option ρ) : Except (Failure K) (Bound ρ α) :=
  match value, ref with
  | some v, none => .ok (.literal v)
  | none, some r => .ok (.reference r)
  | _, _ => .error .oneBound

end Bound

/-- A bound of a quantity: a number, or what another quantity reads. -/
abbrev Limit (K : Type) := Bound Id (Number K)

structure Quantity (K : Type) where
  id : Id
  kind : QuantityKind
  a : Id
  b : Id
  /-- Further nodes, which it does not use. -/
  others : List Id := []
  lower : Option (Limit K)
  upper : Option (Limit K)
  springIds : List Id
  /-- Nodes held on a rail, each with the spring that holds it, in the order they came. -/
  captives : List (Id × Id)

namespace Quantity

variable {K : Type}

instance : Inhabited (Quantity K) where
  default :=
    { id := 0, kind := .unknown, a := 0, b := 0, lower := none, upper := none, springIds := [],
      captives := [] }

def pivot? (q : Quantity K) : Option Id :=
  match q.kind with
  | .angle p => some p
  | _ => none

/-- The pivot is looked for; what is no angle has none. -/
def findPivot (q : Quantity K) : Except (Failure K) (Option Id) :=
  match q.kind with
  | .lacking (some "angle") _ => .error .tooFewNodes
  | _ => .ok q.pivot?

/-- The nodes it is declared over; captives are not among them. -/
def nodeIds (q : Quantity K) : List Id :=
  match q.kind with
  | .lacking _ nodes => nodes
  | _ => q.a :: q.b :: q.pivot?.toList ++ q.others

/-- A quantity object of the kind of this name, or of unknown kind, over these nodes. -/
def ofNodes (id : Id) (name : Option String) (nodes : List Id) : Quantity K :=
  let made (kind : QuantityKind) (a b : Id) (others : List Id) : Quantity K :=
    { id := id, kind := kind, a := a, b := b, others := others, lower := none, upper := none,
      springIds := [], captives := [] }
  match name, nodes with
  | some "distance", a :: b :: more => made .distance a b more
  | some "angle", a :: b :: p :: more => made (.angle p) a b more
  | some "rail", a :: b :: more => made .rail a b more
  | none, a :: b :: more => made .unknown a b more
  | _, _ => made (.lacking name nodes) 0 0 []

def isOver (q : Quantity K) (k : Key) : Bool := q.nodeIds.any fun i => some i == k

def springHolding? (q : Quantity K) (k : Key) : Option Id :=
  (q.captives.find? fun c => some c.1 == k).map Prod.snd

def refersTo (q : Quantity K) (k : Key) : Bool :=
  [q.lower, q.upper].any fun b => match b with
    | some b => b.reference? == k
    | none => false

def keepBound (k : Key) : Option (Limit K) → Option (Limit K)
  | some b => if b.reference? = k then none else some b
  | none => none

def openReference (q : Quantity K) (k : Key) : Quantity K :=
  { q with lower := keepBound k q.lower, upper := keepBound k q.upper }

/-- A captive's spring is written down: in the captive's place, or at the end. -/
def putCaptive (captives : List (Id × Id)) (node spring : Id) : List (Id × Id) :=
  if captives.any fun c => c.1 == node then
    captives.map fun c => if c.1 == node then (node, spring) else c
  else captives ++ [(node, spring)]

def hold (q : Quantity K) (node spring : Id) : Quantity K :=
  { q with captives := putCaptive q.captives node spring, springIds := q.springIds ++ [spring] }

def release (q : Quantity K) (k : Key) (spring : Id) : Quantity K :=
  { q with captives := q.captives.filter (fun c => some c.1 != k)
           springIds := q.springIds.erase spring }

def disowned (q : Quantity K) : Quantity K := { q with springIds := [], captives := [] }

end Quantity

/-- What a caller gives for a bound. `ρ` is how it points at a quantity. -/
inductive BoundArg (ρ K : Type) where
  | none
  | number (n : Number K)
  | quantity (q : ρ)
  | bound (b : Limit K)
  /-- Nothing that a bound can be made of. -/
  | other (v : Value K)

def BoundArg.map {ρ ρ' K : Type} (f : ρ → ρ') : BoundArg ρ K → BoundArg ρ' K
  | .none => .none
  | .number n => .number n
  | .quantity q => .quantity (f q)
  | .bound b => .bound b
  | .other v => .other v

end Linkage
