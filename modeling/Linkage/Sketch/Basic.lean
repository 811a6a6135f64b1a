import Linkage.Scene.Frame
import Linkage.Scene.Measure

/-!
# Sketches

A sketch declares quantities over a scene. Like springs, quantities are objects known by reference;
the sketch lists those that are declared and gives out their ids.
-/

namespace Linkage

structure Sketch (K : Type) extends Scene K where
  quantities : Arena (Quantity K)
  declared : List Ref := []
  nextQuantity : Id := 0

namespace Sketch

variable {K : Type} [Scalar K]

/-! ### Look-ups -/

def quantity (w : Sketch K) (r : Ref) : Quantity K := w.quantities.get r

def members (w : Sketch K) : List (Quantity K) := w.declared.map w.quantity

def quantityRef? (w : Sketch K) (k : Key) : Option Ref :=
  w.declared.find? fun r => some (w.quantity r).id == k

/-- Rails end at their endpoints. -/
def clamped (w : Sketch K) : Bool := w.graph.config.railsEnd

/-! ### Changes -/

def withScene (s : Scene K) (w : Sketch K) : Sketch K := { w with toScene := s }

def changeQuantity (w : Sketch K) (r : Ref) (f : Quantity K → Quantity K) : Sketch K :=
  { w with quantities := w.quantities.modify r f }

def makeQuantity (w : Sketch K) (q : Quantity K) : Sketch K :=
  { w with quantities := w.quantities.alloc q }

def passId (w : Sketch K) : Sketch K := { w with nextQuantity := w.nextQuantity + 1 }

def declare (w : Sketch K) (r : Ref) : Sketch K := { w with declared := w.declared ++ [r] }

/-- The quantity is struck from the list, and every bound that refers to it is opened. -/
def strike (w : Sketch K) (k : Key) : Sketch K :=
  let rest := w.declared.filter fun r => some (w.quantity r).id != k
  { w with
    declared := rest
    quantities := rest.foldl (fun a r => a.modify r (·.openReference k)) w.quantities }

end Sketch

def Act.onScene {K α : Type} (x : Act K (Scene K) α) : Act K (Sketch K) α :=
  x.onPart Sketch.toScene Sketch.withScene

end Linkage
