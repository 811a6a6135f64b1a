import Linkage.Bench

/-!
# Sessions

A session holds several worlds side by side, each a scene with its sketch, and some of them on a
bench. Springs and quantities are shared objects: one arena of each serves all worlds, and a
session may give them names.
-/

namespace Linkage

structure World (K : Type) where
  graph : Graph K
  declared : List Ref
  nextQuantity : Id
  drag : Option Ref
  /-- It lies on a bench. -/
  benched : Bool

structure Session (K : Type) where
  springs : Arena (Spring K) := {}
  quantities : Arena (Quantity K) := {}
  worlds : List (World K) := []
  springNames : List (String × Ref) := []
  quantityNames : List (String × Ref) := []

/-- How a step points at an object: by its id in the world, or by a name of the session. -/
inductive Target where
  | id (k : Key)
  | name (s : String)
deriving Repr, DecidableEq

namespace Session

variable {K : Type} [Scalar K]

def bench (s : Session K) (w : World K) : Bench K :=
  { springs := s.springs
    graph := w.graph
    quantities := s.quantities
    declared := w.declared
    nextQuantity := w.nextQuantity
    drag := w.drag }

def worldOf (m : Bench K) (benched : Bool) : World K :=
  { graph := m.graph
    declared := m.declared
    nextQuantity := m.nextQuantity
    drag := m.drag
    benched := benched }

def share (s : Session K) (m : Bench K) : Session K :=
  { s with springs := m.springs, quantities := m.quantities }

def onWorld {α : Type} (i : Nat) (x : Act K (Bench K) α) : Act K (Session K) α := fun s =>
  match s.worlds[i]? with
  | none => ⟨.error .noSuchWorld, s, []⟩
  | some w =>
    let r := x (s.bench w)
    ⟨r.outcome,
      { s.share r.state with worlds := s.worlds.set i (worldOf r.state w.benched) },
      r.events⟩

/-- A new world, if the action that opens it succeeds; gives its number. -/
def newWorld (benched : Bool) (x : Act K (Bench K) Unit) : Act K (Session K) Nat := fun s =>
  let r := x
    { springs := s.springs, graph := default, quantities := s.quantities, drag := none }
  match r.outcome with
  | .error e => ⟨.error e, s, r.events⟩
  | .ok () =>
    ⟨.ok s.worlds.length,
      { s.share r.state with worlds := s.worlds ++ [worldOf r.state benched] },
      r.events⟩

def find (names : List (String × Ref)) (name : String) : Except (Failure K) Ref :=
  match names.find? fun e => e.1 == name with
  | some e => .ok e.2
  | none => .error .noSuchName

/-- The latest object of a name counts. -/
def nameSpring (name : Option String) (r : Ref) : Act K (Session K) Unit :=
  match name with
  | none => pure ()
  | some n => Act.change fun s => { s with springNames := (n, r) :: s.springNames }

def nameQuantity (name : Option String) (r : Ref) : Act K (Session K) Unit :=
  match name with
  | none => pure ()
  | some n => Act.change fun s => { s with quantityNames := (n, r) :: s.quantityNames }

end Session

end Linkage
