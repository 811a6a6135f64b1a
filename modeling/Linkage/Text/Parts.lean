import Linkage.Connection
import Linkage.Quantity
import Linkage.Text.Value

/-!
# Nodes, springs and quantities in messages

One line for each object of a scene. A quantity of unknown kind has no line.
-/

namespace Linkage.Text

def node (n : Node Float) : String :=
  "ConstructionNode(id=" ++ toString n.id ++ ", x=" ++ Decimal.fixed 3 n.position.x ++ ", y="
    ++ Decimal.fixed 3 n.position.y ++ ")"

def anchor : Anchor Float → String
  | .node i => "node " ++ toString i
  | .point p => "point (" ++ Decimal.fixed 2 p.x ++ ", " ++ Decimal.fixed 2 p.y ++ ")"

def spring (s : Spring Float) : String :=
  "ConstructionSpring(id=" ++ key s.id ++ ", kind=" ++ s.kind.name ++ ", " ++ anchor s.a
    ++ " -> node " ++ key s.b ++ ", min=" ++ orNone number s.lower ++ ", max="
    ++ orNone number s.upper ++ ")"

def connection (c : Connection) : String :=
  "ConstructionConnection(" ++ toString c.a ++ " <-> " ++ toString c.b ++ ")"

/-- A bound, its value and its reference being written in ways of their own. -/
def boundWith {ρ α : Type} (value : α → String) (reference : ρ → String) : Bound ρ α → String
  | .literal v => "QuantityBound(value=" ++ value v ++ ", reference=None)"
  | .reference r => "QuantityBound(value=None, reference=" ++ reference r ++ ")"

def bound (b : Limit Float) : String := boundWith number toString b

/-- Items in round brackets; a comma shows that a single one is meant as an item. -/
def tuple : List String → String
  | [x] => "(" ++ x ++ ",)"
  | xs => "(" ++ ", ".intercalate xs ++ ")"

def quantity? (q : Quantity Float) : Option String :=
  q.kind.name?.map fun kind =>
    "MetaQuantityNode(id=" ++ toString q.id ++ ", kind=" ++ kind ++ ", nodes="
      ++ tuple (q.nodeIds.map toString) ++ ", min=" ++ orNone bound q.lower ++ ", max="
      ++ orNone bound q.upper ++ ", springs=" ++ listed (q.springIds.map toString) ++ ")"

/-- A quantity of unknown kind is left blank. -/
def quantity (q : Quantity Float) : String := (quantity? q).getD ""

def boundArg : BoundArg (Quantity Float) Float → String
  | .none => "None"
  | .number n => number n
  | .quantity q => quantity q
  | .bound b => bound b
  | .other v => plain v

end Linkage.Text
