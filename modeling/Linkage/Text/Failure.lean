import Linkage.Failure
import Linkage.Text.Value

/-!
# The wording of failures

A failure that the arithmetic or the file system raises has no wording of its own.
-/

namespace Linkage.Text

/-- The part of the settings that is at fault. -/
def misfitPart : Misfit Float → String
  | .stiffnessNotPositive _ | .dampingNegative _ => "springs"
  | _ => "integration"

def misfitDetail : Misfit Float → String
  | .stiffnessNotPositive kind => kind.name ++ ".stiffness must be positive"
  | .dampingNegative kind => kind.name ++ ".damping must be non-negative"
  | .unknownPolicy v => "Unknown substep_policy: " ++ plain v
  | .tooFewSubsteps => "substeps must be >= 1"
  | .maxSubstepNotPositive => "max_substep_s must be positive"
  | .frictionNegative => "friction must be non-negative"
  | .lengthCapNotPositive => "length_cap must be positive"

def misfit (m : Misfit Float) : String := misfitPart m ++ ": " ++ misfitDetail m

def failure? : Failure Float → Option String
  | .selfConnection => some "Can't connect a node to itself."
  | .noSuchNode k => some ("Node with ID '" ++ key k ++ "' does not exist in the graph.")
  | .noSuchSpring k => some ("Spring with ID '" ++ key k ++ "' does not exist in the graph.")
  | .noSuchQuantity k => some ("Meta node with ID '" ++ key k ++ "' does not exist in the graph.")
  | .foreignNode k =>
    some ("Node with ID '" ++ key k ++ "' is not part of this construction graph.")
  | .foreignQuantity i => some ("Meta node '" ++ toString i ++ "' belongs to another meta graph.")
  | .nodeDeleted q n =>
    some ("Meta node " ++ toString q ++ " refers to deleted node '" ++ toString n ++ "'.")
  | .oneEndpoint => some "Spring endpoint A must be exactly one of a node or a literal point."
  | .springListed i => some ("Spring with ID '" ++ toString i ++ "' already exists in the graph.")
  | .noLiteralPoint k => some ("Spring " ++ key k ++ " joins two nodes and has no literal point.")
  | .componentCount n => some ("Expected 2 components, got " ++ toString n)
  | .oneBound => some "QuantityBound needs exactly one of value or reference."
  | .unsupportedBound v => some ("Unsupported bound value: " ++ shown v)
  | .pivotOnArm => some "Angle pivot must differ from both arm nodes."
  | .oneRailNode => some "Rail needs two distinct nodes."
  | .captiveOnRailEnd => some "A rail can't capture one of its own endpoints."
  | .notARail k => some ("Meta node '" ++ key k ++ "' is not a rail.")
  | .unknownKind => some "Unknown meta quantity kind: None"
  | .invalidConfig m => some ("Invalid configuration: " ++ misfit m)
  | .malformedNumber | .notANumber | .divisionByZero | .tooLarge | .infiniteCount | .undefinedCount
  | .endpointLost | .railEndLost | .nodeLost | .tooFewNodes | .unnamedKind | .notAMapping
  | .noDocument | .malformedDocument _ | .noSuchWorld | .noSuchName => none

end Linkage.Text
