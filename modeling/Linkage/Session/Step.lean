import Linkage.Session.Basic

/-!
# Steps of a session

A `Step` is one thing that is asked of a world, with objects given by id or by name. An `Answer` is
what comes back when it succeeds.
-/

namespace Linkage

inductive BoundGiven (K : Type) where
  | none
  | number (n : Number K)
  | quantity (t : Target)
  | bound (value : Option (Number K)) (ref : Key)
  | other (v : Value K)

inductive NodeStep (K : Type) where
  | setVelocity (v : Coords K)
  | attach (spring : Id)
  | detach (spring : Id)
  | netForce (friction : K)
  | moved (friction h : K)

inductive SpringStep (K : Type) where
  | show
  | info (ids : List Key)
  | movePoint (p : Coords K)
  | boundSpring (lower upper : Option (Number K))
  | setRailEnd (value : Bool)
  | expire
  | sameEnds (other : Target)
  | length
  | displacement (l : K)
  | isWithin (tolerance : K)
  | relax (cap : K)
  | strain (h cap : K)
  | forceAt (k : Key)

inductive QuantityStep (K : Type) where
  | info
  | refersTo (k : Key)
  | openReference (k : Key)
  | read
  | impose (lower upper : Option (Number K)) (clamped : Bool)
  | labelPoint

inductive Step (K : Type) where
  | newBench (settings : Value K) (demo : Bool)
  | newGraph (settings : Value K)
  | addNode (spot : Coords K)
  | deleteNode (k : Key)
  | putNode (k : Key) (spot : Coords K)
  | connect (a b : Key)
  | disconnect (a b : Key)
  | makeSpring (spec : SpringSpec K) (name : Option String)
  | enterSpring (t : Target)
  | deleteSpring (k : Key)
  | pin (k : Key) (spot : Option (Coords K)) (name : Option String)
  | tie (a b : Key) (lower upper : Option (Number K)) (name : Option String)
  | follow (k : Key) (spot : Option (Coords K)) (name : Option String)
  | getNode (k : Key)
  | isNode (k : Key)
  | touching (k : Key)
  | stepsFor (dt : K)
  | advance (dt : K) (n : Nat)
  | allWithin (tolerance : K)
  | list
  | node (k : Key) (s : NodeStep K)
  | spring (t : Target) (s : SpringStep K)
  | declareDistance (a b : Key) (lower upper : BoundGiven K) (name : Option String)
  | declareAngle (a b pivot : Key) (lower upper : BoundGiven K) (name : Option String)
  | declareRail (a b : Key) (captives : List Key) (name : Option String)
  | hold (rail node : Key)
  | release (rail node : Key)
  | setLower (k : Key) (b : BoundGiven K)
  | setUpper (k : Key) (b : BoundGiven K)
  | readingOf (k : Key)
  | valueOf (b : BoundGiven K)
  | withdraw (k : Key)
  | withdrawNode (k : Key)
  | refresh (dt : Option K) (n : Nat)
  /-- A quantity object outside the sketch, with bounds still to be made. -/
  | makeQuantity (q : Quantity K) (lower upper : BoundGiven K) (name : Option String)
  | quantity (t : Target) (s : QuantityStep K)
  | frame (dt : K) (n : Nat)
  | grab (k : Key) (spot : Option (Coords K)) (name : Option String)
  | pullTo (spot : Coords K)
  | letGo
  | cancel
  | describe
  | nothing

inductive Answer (K : Type) where
  | nothing
  | flag (b : Bool)
  | world (i : Nat)
  | id (k : Key)
  | ids (is : List Key)
  /-- A count as the settings have it, whatever that is. -/
  | count (n : Value K)
  | connection (c : Connection)
  | node (n : Option (Node K))
  | spring (s : Spring K)
  | springInfo (s : Spring K) (contains : List Bool)
  | quantity (q : Quantity K)
  | quantityInfo (q : Quantity K)
  /-- A length, an angle or a position along a rail, where there is one. -/
  | reading (x : Option K)
  | displacement (x : K)
  | point (p : Point K)
  | force (p : Point K)
  | scene (nodes : List (Node K)) (springs : List (Spring K)) (connections : List Connection)
      (quantities : List (Quantity K))

namespace Session

open Act

variable {K : Type} [Scalar K]

/-! ### Objects -/

def springAt (i : Nat) : Target → Act K (Session K) Ref
  | .id k => onWorld i (Scene.needSpring k).onScene.onSketch
  | .name n => do ofExcept (find (← read).springNames n)

def quantityAt (i : Nat) : Target → Act K (Session K) Ref
  | .id k => onWorld i (Sketch.needQuantity k).onSketch
  | .name n => do ofExcept (find (← read).quantityNames n)

def boundArg (i : Nat) : BoundGiven K → Act K (Session K) (BoundArg Ref K)
  | .none => return .none
  | .number n => return .number n
  | .quantity t => return .quantity (← quantityAt i t)
  | .bound value ref => return .bound (← ofExcept (Bound.make value ref))
  | .other v => return .other v

/-- A bound that has to be one already. -/
def boundOnly : BoundGiven K → Except (Failure K) (Option (Limit K))
  | .bound value ref => (Bound.make value ref).map some
  | .number n => .ok (some (.literal n))
  | _ => .ok none

/-! ### Groups of steps -/

def nodeAt (k : Key) : Act K (Scene K) (Node K) := do
  match (← read).node? k with
  | some n => return n
  | none => fail .nodeLost

/-- A velocity is read before the node is looked for. -/
def runNode (k : Key) (s : NodeStep K) : Act K (Scene K) (Answer K) := do
  match s with
  | .setVelocity v => do
    let v ← ofExcept v.toPoint
    let n ← nodeAt k
    change (·.changeNode n.id fun n => { n with velocity := v })
    return .nothing
  | .attach i => do
    let n ← nodeAt k
    change (·.changeNode n.id (·.attach i))
    return .nothing
  | .detach i => do
    let n ← nodeAt k
    change (·.changeNode n.id (·.detach i))
    return .nothing
  | .netForce friction => do
    let n ← nodeAt k
    return .force (n.netForce (← read).springOf friction)
  | .moved friction h => do
    let n ← nodeAt k
    change fun w => w.changeNode n.id (·.moved w.springOf friction h)
    return .nothing

def measured (r : Ref) : Act K (Scene K) (Spring K × Point K × Point K) := do
  let w ← read
  let s := w.spring r
  return (s, ← ofExcept (w.ends s))

def runSpring (r : Ref) (other : Option Ref) (step : SpringStep K) :
    Act K (Scene K) (Answer K) := do
  match step with
  | .show => return .spring ((← read).spring r)
  | .info ids => do
    let s := (← read).spring r
    return .springInfo s (ids.map s.contains)
  | .movePoint p => do
    Scene.movePoint r p
    return .nothing
  | .boundSpring lower upper => do
    Scene.boundSpring r lower upper
    return .nothing
  | .setRailEnd value => do
    change (·.changeSpring r fun s => { s with atRailEnd := value })
    return .nothing
  | .expire => do
    Scene.expire r
    return .nothing
  | .sameEnds _ => do
    let w ← read
    return .flag ((w.spring r).sameEnds (w.spring (other.getD r)))
  | .length => do
    let (_, a, b) ← measured r
    return .reading (some (Point.distance a b))
  | .displacement l => return .displacement (((← read).spring r).displacementAt l)
  | .isWithin tolerance => do
    let (s, a, b) ← measured r
    return .flag (s.isWithin a b tolerance)
  | .relax cap => do
    Scene.observe (fun s a b => .ok (s.relaxed a b cap)) r
    return .nothing
  | .strain h cap => do
    Scene.strainOne h (some cap) r
    return .point ((← read).spring r).strain.direction
  | .forceAt k => return .force (((← read).spring r).forceAt k)

def runQuantity (r : Ref) (step : QuantityStep K) : Act K (Sketch K) (Answer K) := do
  let w ← read
  let q := w.quantity r
  match step with
  | .info => do
    let _ ← ofExcept q.findPivot
    if q.kind.name?.isNone then fail .unnamedKind else return .quantityInfo q
  | .refersTo k => return .flag (q.refersTo k)
  | .openReference k => do
    change (·.changeQuantity r (·.openReference k))
    return .nothing
  | .read => return .reading (some (← ofExcept (q.read w.toScene)))
  | .impose lower upper clamped => do
    (q.impose lower upper clamped).onScene
    return .nothing
  | .labelPoint => return .point (← ofExcept (q.labelPoint w.toScene))

/-! ### One step -/

section

variable (i : Nat)

def onScene {α : Type} (x : Act K (Scene K) α) : Act K (Session K) α :=
  onWorld i x.onScene.onSketch

def onSketch {α : Type} (x : Act K (Sketch K) α) : Act K (Session K) α :=
  onWorld i x.onSketch

/-- The answer to a step that has nothing to tell. -/
def quietly (x : Act K (Session K) Unit) : Act K (Session K) (Answer K) := do
  x
  return .nothing

/-- A spring that a step added: it may get a name, and its id is told. -/
def added (name : Option String) (x : Act K (Session K) Ref) :
    Act K (Session K) (Answer K) := do
  let r ← x
  nameSpring name r
  return .id ((← read).springs.get r).id

def declared (name : Option String) (x : Act K (Session K) Ref) :
    Act K (Session K) (Answer K) := do
  let r ← x
  nameQuantity name r
  return .id (some ((← read).quantities.get r).id)

/-- Settings that say nothing at all are the standard ones. -/
def settings (d : Value K) : Act K (Session K) (Settings K) := ofExcept (Settings.ofDocument d)

def run : Step K → Act K (Session K) (Answer K)
  | .newBench d demo => do
    let c ← settings d
    return .world (← newWorld true (if demo then Bench.openDemo c else Bench.openBench c))
  | .newGraph d => do
    let c ← settings d
    return .world (← newWorld false (Bench.openScene c))
  | .addNode p => return .id (some (← onScene i (Scene.addNode p)))
  | .deleteNode k => quietly (onScene i (Scene.deleteNode k))
  | .putNode k p => quietly (onScene i (Scene.putNode k p))
  | .connect a b => return .connection (← onScene i (Scene.connect a b))
  | .disconnect a b => quietly (onScene i (Scene.disconnect a b))
  | .makeSpring spec name => do
    let s ← ofExcept spec.build
    let r := (← read).springs.fresh
    change fun w => { w with springs := w.springs.alloc s }
    nameSpring name r
    return .spring s
  | .enterSpring t => do
    let r ← springAt i t
    added none do
      onScene i (Scene.enterSpring r)
      return r
  | .deleteSpring k => quietly (onScene i (Scene.deleteSpring k))
  | .pin k p name => added name (onScene i (Scene.pin k p))
  | .tie a b lower upper name => added name (onScene i (Scene.tie a b lower upper))
  | .follow k p name => added name (onScene i (Scene.follow k p))
  | .getNode k => onScene i (do return .node ((← read).node? k))
  | .isNode k => onScene i (do return .flag ((← read).isNode k))
  | .touching k => onScene i do
    let w ← read
    return .ids ((w.touching k).map fun r => (w.spring r).id)
  | .stepsFor dt => onScene i (do
    return .count (← ofExcept ((← read).graph.config.stepping.stepsFor dt)))
  | .advance dt n => quietly (onScene i (times n (Scene.advance dt)))
  | .allWithin tolerance => onScene i (do
    return .flag (← ofExcept ((← read).allWithin tolerance)))
  | .list => quietly (onScene i Scene.list)
  | .node k s => onScene i (runNode k s)
  | .spring t s => do
    let r ← springAt i t
    let other ← match s with
      | .sameEnds u => some <$> springAt i u
      | _ => pure none
    onScene i (runSpring r other s)
  | .declareDistance a b lower upper name => do
    let lower ← boundArg i lower
    let upper ← boundArg i upper
    declared name (onSketch i (Sketch.declareDistance a b lower upper))
  | .declareAngle a b p lower upper name => do
    let lower ← boundArg i lower
    let upper ← boundArg i upper
    declared name (onSketch i (Sketch.declareAngle a b p lower upper))
  | .declareRail a b captives name => declared name (onSketch i (Sketch.declareRail a b captives))
  | .hold rail node => quietly (onSketch i (Sketch.hold rail node))
  | .release rail node => quietly (onSketch i (Sketch.release rail node))
  | .setLower k b => do
    let b ← boundArg i b
    quietly (onSketch i (Sketch.setLower k b))
  | .setUpper k b => do
    let b ← boundArg i b
    quietly (onSketch i (Sketch.setUpper k b))
  | .readingOf k => return .reading (some (← onSketch i (Sketch.readingOf k)))
  | .valueOf b => do
    let b ← ofExcept (boundOnly b)
    return .reading ((← onSketch i (Sketch.valueNow b)).map Number.val)
  | .withdraw k => quietly (onSketch i (Sketch.withdraw k))
  | .withdrawNode k => quietly (onSketch i (Sketch.withdrawNode k))
  | .refresh dt n => quietly (onSketch i (times n (Sketch.refresh dt)))
  | .makeQuantity q lower upper name => do
    let lower ← ofExcept (boundOnly lower)
    let upper ← ofExcept (boundOnly upper)
    let q := { q with lower := lower, upper := upper }
    let r := (← read).quantities.fresh
    change fun w => { w with quantities := w.quantities.alloc q }
    nameQuantity name r
    return .quantity q
  | .quantity t s => do
    let r ← quantityAt i t
    onSketch i (runQuantity r s)
  | .frame dt n => quietly (onWorld i (times n (Bench.frame dt)))
  | .grab k p name => added name (onWorld i (Bench.grab k p))
  | .pullTo p => quietly (onWorld i (Bench.pullTo p))
  | .letGo => quietly (onWorld i Bench.letGo)
  | .cancel => quietly (onWorld i Bench.cancel)
  | .describe => onSketch i do
    let w ← read
    return .scene w.graph.nodes w.toScene.members w.graph.connections w.members
  | .nothing => return .nothing

end

end Session

end Linkage
