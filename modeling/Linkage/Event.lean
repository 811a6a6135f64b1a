import Linkage.Connection
import Linkage.Quantity

/-!
# What a scene reports while it works

Every operation reports what it does as a list of events. Their wording is in `Linkage.Text.Event`.
-/

namespace Linkage

inductive Priority where
  | debug
  | info
  | warning
  | error
  | critical
  | default
deriving Repr, DecidableEq

def Priority.name : Priority → String
  | debug => "DEBUG"
  | info => "INFO"
  | warning => "WARNING"
  | error => "ERROR"
  | critical => "CRITICAL"
  | default => "DEFAULT"

/-- The lines between the parts of a listing. -/
inductive Heading where
  | graph
  | nodes
  | springs
  | connections
  | close
deriving Repr, DecidableEq

inductive Event (K : Type) where
  | graphOpening
  | graphOpened
  | nodeCreated (n : Node K)
  | nodeRemoving (k : Key)
  | nodeAbsent (k : Key)
  | nodeRemoved (k : Key)
  | connectionAdded (c : Connection)
  | springAdding (s : Spring K)
  | springAdded (id : Id)
  | springAbsent (k : Key)
  | springRemoved (s : Spring K)
  | frame (dt : K) (steps : Number K) (nodes springs : Nat)
  | heading (h : Heading)
  | listedNode (n : Node K)
  | listedSpring (s : Spring K)
  | listedConnection (c : Connection)
  | sketchOpening
  | sketchOpened
  | distanceAdding (a b : Key) (lower upper : BoundArg (Quantity K) K)
  | distanceAdded
  | angleAdding (a b pivot : Key) (lower upper : BoundArg (Quantity K) K)
  | angleAdded
  | railAdding (a b : Key) (captives : List Key)
  | railAdded
  /-- A bound in degrees is read where a length is meant, or the other way round. -/
  | unitsMixed (kind : QuantityKind) (read : Quantity K)
  | quantityAdded (q : Quantity K)
  | captiveHeld (node : Key) (rail : Key)
  | captiveReleased (node : Key) (rail : Key)
  | referenceMissing (id : Id)
  | quantityRemoving (k : Key)
  | quantityAbsent (k : Key)
  | quantityRemoved (k : Key)
  | quantityDangling (id : Id)
  | nodeWithdrawing (k : Key)
  | nodeWithdrawn (k : Key)
  | benchOpening
  | benchOpened
  | dragStarted (node : Key)
  | dragEnded (node : Key)
  | dragCancelled (node : Key)

/-- What was asked for and is not there is worth a warning. -/
def Event.priority {K : Type} : Event K → Priority
  | nodeAbsent _ | springAbsent _ | unitsMixed .. | referenceMissing _ | quantityAbsent _
  | quantityDangling _ => .warning
  | _ => .debug

end Linkage
