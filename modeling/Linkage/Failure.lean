import Linkage.Config
import Linkage.Name

/-!
# What can go wrong

One constructor for each cause. The wording of a failure is in `Linkage.Text.Failure`.
-/

namespace Linkage

/-- What makes settings unfit for use. -/
inductive Misfit (K : Type) where
  | stiffnessNotPositive (kind : SpringKind)
  | dampingNegative (kind : SpringKind)
  | unknownPolicy (given : Value K)
  | tooFewSubsteps
  | maxSubstepNotPositive
  | frictionNegative
  | lengthCapNotPositive

inductive DocumentFault where
  | character
  /-- Something cannot be read, or stands where it cannot be read. -/
  | lexical
  /-- What was read does not fit together. -/
  | grammar
  /-- A second document follows. -/
  | second
  /-- A name stands for nothing, or is given twice. -/
  | naming
  /-- What was read fits together and is no value. -/
  | meaningless
  /-- A number, a date or a character is written as one should be and is none. -/
  | noSuchValue
  /-- A word that has to be a yes or a no is neither. -/
  | noSuchWord
  | tooLarge
deriving Repr, DecidableEq, Inhabited

inductive Failure (K : Type) where
  | selfConnection
  | noSuchNode (k : Key)
  | noSuchSpring (k : Key)
  | noSuchQuantity (k : Key)
  | foreignNode (k : Key)
  /-- A quantity object is used as a bound outside the sketch that lists it. -/
  | foreignQuantity (id : Id)
  /-- A quantity reads a node that is gone. -/
  | nodeDeleted (quantity node : Id)
  | oneEndpoint
  | springListed (id : Id)
  | noLiteralPoint (spring : Key)
  | componentCount (n : Nat)
  | oneBound
  | unsupportedBound (given : Value K)
  | pivotOnArm
  | oneRailNode
  | captiveOnRailEnd
  | notARail (k : Key)
  | unknownKind
  | invalidConfig (m : Misfit K)
  /-- What stands for a number, or a row of numbers, is none. -/
  | malformedNumber
  /-- A value of the wrong type stands where a number is needed. -/
  | notANumber
  | divisionByZero
  | tooLarge
  | infiniteCount
  | undefinedCount
  | endpointLost
  | railEndLost
  | nodeLost
  /-- A quantity was made over fewer nodes than its kind has. -/
  | tooFewNodes
  | unnamedKind
  /-- Named parts were asked for of a value that has none. -/
  | notAMapping
  | noDocument
  | malformedDocument (f : DocumentFault)
  | noSuchWorld
  | noSuchName

/-- What is there where a number is needed. -/
def asNumber {K α : Type} : Option α → Except (Failure K) α
  | some a => .ok a
  | none => .error .notANumber

/-- The number as one to measure with. A whole number may be too large for that. -/
def Number.measured {K : Type} [Scalar K] : Number K → Except (Failure K) K
  | .whole n =>
    match Scalar.ceil (Scalar.ofInt n : K) with
    | .error .infinite => .error .tooLarge
    | _ => .ok (Scalar.ofInt n)
  | n => .ok n.val

end Linkage
