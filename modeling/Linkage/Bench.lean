import Linkage.Sketch.Withdraw
import Linkage.Settings

/-!
# The bench

A bench is where a sketch is worked on, frame by frame, by somebody who may drag one of its nodes.
The drag is a spring after the pencil: once it is let go it is removed at the end of the next frame,
once it is cancelled it is gone at once.
-/

namespace Linkage

structure Bench (K : Type) extends Sketch K where
  drag : Option Ref := none

variable {K : Type} [Scalar K]

def Act.onSketch {α : Type} (x : Act K (Sketch K) α) : Act K (Bench K) α :=
  x.onPart Bench.toSketch fun s w => { w with toSketch := s }

namespace Bench

open Act

def dragging (w : Bench K) : Bool := w.drag.isSome

def openGraph (c : Config K) : Act K (Bench K) Unit := do
  report .graphOpening
  change fun w => { w with graph := { config := c } }
  report .graphOpened

def openSketch : Act K (Bench K) Unit := do
  report .sketchOpening
  change fun w => { w with declared := [], nextQuantity := 0 }
  report .sketchOpened

def openScene (c : Settings K) : Act K (Bench K) Unit := do
  openGraph c.toConfig
  openSketch

/-- An empty bench under settings that are fit for use. -/
def openBench (c : Settings K) : Act K (Bench K) Unit := do
  report .benchOpening
  let c ← ofExcept c.checked
  openGraph c.toConfig
  openSketch
  change fun w => { w with drag := none }
  report .benchOpened

/-- One node is pinned and two others are joined at a distance. -/
def fillDemo : Act K (Scene K) Unit := do
  let a ← Scene.addNode (.ofPoint ⟨300.0, 300.0⟩)
  let b ← Scene.addNode (.ofPoint ⟨400.0, 400.0⟩)
  let c ← Scene.addNode (.ofPoint ⟨500.0, 400.0⟩)
  let _ ← Scene.pin (some a) none
  let _ ← Scene.connect (some b) (some c)
  let _ ← Scene.tie (some b) (some c) (some (.real 100.0)) (some (.real 100.0))

def openDemo (c : Settings K) : Act K (Bench K) Unit := do
  openBench c
  fillDemo.onScene.onSketch

/-- A frame: quantities first, then springs and nodes. -/
def frame (dt : K) : Act K (Bench K) Unit := (Sketch.refresh (some dt)).onSketch

/-- The dragged node is let go at the end of the next frame. -/
def letGo : Act K (Bench K) Unit := do
  let w ← read
  match w.drag with
  | none => pure ()
  | some r => do
    (Scene.expire r).onScene.onSketch
    report (.dragEnded (w.spring r).b)
    change fun w => { w with drag := none }

/-- A drag in progress ends, whether or not the new one can begin. -/
def grab (k : Key) (spot : Option (Coords K)) : Act K (Bench K) Ref := do
  letGo
  let r ← (Scene.follow k spot).onScene.onSketch
  change fun w => { w with drag := some r }
  report (.dragStarted k)
  return r

def pullTo (spot : Coords K) : Act K (Bench K) Unit := do
  match (← read).drag with
  | none => pure ()
  | some r => (Scene.movePoint r spot).onScene.onSketch

/-- The drag leaves no force behind. -/
def cancel : Act K (Bench K) Unit := do
  let w ← read
  match w.drag with
  | none => pure ()
  | some r => do
    (Scene.deleteListed r).onScene.onSketch
    report (.dragCancelled (w.spring r).b)
    change fun w => { w with drag := none }

end Bench

end Linkage
