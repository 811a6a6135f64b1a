import Linkage.Event
import Linkage.Text.Parts

/-!
# The wording of events
-/

namespace Linkage.Text

def heading : Heading → String
  | .graph => "===== Construction Graph ====="
  | .nodes => "Nodes:"
  | .springs => "Springs:"
  | .connections => "Connections:"
  | .close => "=============================="

def kindName (k : QuantityKind) : String := k.name?.getD ""

def call (name : String) (args : List String) : String :=
  name ++ "(" ++ ", ".intercalate ("self" :: args) ++ ")"

def event : Event Float → String
  | .graphOpening => "start ConstructionGraph __init__(self)"
  | .graphOpened => "end ConstructionGraph __init__(self)"
  | .nodeCreated n => "Node created: " ++ node n
  | .nodeRemoving k => "start " ++ call "remove_node" [key k]
  | .nodeAbsent k => "Node '" ++ key k ++ "' not found, nothing removed."
  | .nodeRemoved k => "end " ++ call "remove_node" [key k]
  | .connectionAdded c => "Connection added: " ++ connection c
  | .springAdding s => "start " ++ call "add_spring" [spring s]
  | .springAdded i => "end " ++ call "add_spring" ["spring"] ++ " -> id " ++ toString i
  | .springAbsent k => "Spring '" ++ key k ++ "' not found, nothing removed."
  | .springRemoved s => "Spring removed: " ++ spring s
  | .frame dt steps nodes springs =>
    "ConstructionGraph update: dt=" ++ Decimal.fixed 5 dt ++ "s, substeps=" ++ number steps
      ++ ", nodes=" ++ toString nodes ++ ", springs=" ++ toString springs
  | .heading h => heading h
  | .listedNode n => node n
  | .listedSpring s => spring s
  | .listedConnection c => connection c
  | .sketchOpening => "start MetaGraph __init__(self)"
  | .sketchOpened => "end MetaGraph __init__(self)"
  | .distanceAdding a b lower upper =>
    "start " ++ call "add_distance" [key a, key b, boundArg lower, boundArg upper]
  | .distanceAdded => "end add_distance()"
  | .angleAdding a b p lower upper =>
    "start " ++ call "add_angle" [key a, key b, key p, boundArg lower, boundArg upper]
  | .angleAdded => "end add_angle()"
  | .railAdding a b captives =>
    "start " ++ call "add_rail" [key a, key b, listed (captives.map key)]
  | .railAdded => "end add_rail()"
  | .unitsMixed kind q =>
    kindName kind ++ " bound reads the " ++ kindName q.kind ++ " quantity of meta node "
      ++ toString q.id ++ "; degrees and lengths are mixed."
  | .quantityAdded q => "Meta node added: " ++ quantity q
  | .captiveHeld n r => "Captive " ++ key n ++ " added to rail " ++ key r
  | .captiveReleased n r => "Captive " ++ key n ++ " released from rail " ++ key r
  | .referenceMissing i => "Bound references missing meta node '" ++ toString i ++ "', left open."
  | .quantityRemoving k => "start " ++ call "remove" [key k]
  | .quantityAbsent k => "Meta node '" ++ key k ++ "' not found, nothing removed."
  | .quantityRemoved k => "end " ++ call "remove" [key k]
  | .quantityDangling i =>
    "Meta node " ++ toString i ++ " lost a construction node, removing it."
  | .nodeWithdrawing k => "start " ++ call "remove_construction_node" [key k]
  | .nodeWithdrawn k => "end " ++ call "remove_construction_node" [key k]
  | .benchOpening => "start Model __init__(self)"
  | .benchOpened => "end Model __init__(self)"
  | .dragStarted k => "Drag started on node " ++ key k
  | .dragEnded k => "Drag ended on node " ++ key k
  | .dragCancelled k => "Drag cancelled on node " ++ key k

end Linkage.Text
