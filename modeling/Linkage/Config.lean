import Linkage.Value

/-!
# The settings a scene runs under

Spring constants for each kind of spring, how a frame is split into sub-steps, and whether rails end
at their endpoints. `Stepping.stepsFor` says into how many sub-steps a frame is split.
-/

namespace Linkage

inductive SpringKind where
  | affix
  | distance
  | followPencil
  | rail
deriving Repr, DecidableEq, Inhabited

namespace SpringKind

def name : SpringKind → String
  | affix => "affix"
  | distance => "distance"
  | followPencil => "follow_pencil"
  | rail => "rail"

/-- Every kind, in the order that settings list them. -/
def all : List SpringKind := [distance, affix, followPencil, rail]

end SpringKind

/-- A frame is split into a fixed count of sub-steps, unless the policy asks for as few as keep each
one short enough. A policy of any other name splits like the first one. -/
inductive SubstepPolicy where
  | fixedCount
  | maxDuration
  | other
deriving Repr, DecidableEq

structure Constants (K : Type) where
  stiffness : K
  damping : K

/-- How frames are computed. Settings may be in use without having been checked: a setting that is
no number is left out, and what needs it fails. -/
structure Stepping (K : Type) where
  policy : SubstepPolicy
  /-- Given out as it was written. -/
  substeps : Value K
  maxSubstep : Option K
  friction : Option K
  lengthCap : Option K

structure Config (K : Type) where
  /-- None for a kind whose constants are not both numbers. -/
  constants : SpringKind → Option (Constants K)
  stepping : Stepping K
  railsEnd : Bool

variable {K : Type} [Scalar K]

/-- Soft springs for distances and the pencil, stiff ones for pins and rails. -/
def Constants.standard : SpringKind → Constants K
  | .distance | .followPencil => ⟨250.0, 31.6⟩
  | .affix | .rail => ⟨5000.0, 94.0⟩

def Stepping.standard : Stepping K where
  policy := .fixedCount
  substeps := .number (.whole 25)
  maxSubstep := some (1.0 / 1500.0)
  friction := some 5.0
  lengthCap := some 10.0

def Config.standard : Config K where
  constants kind := some (Constants.standard kind)
  stepping := Stepping.standard
  railsEnd := false

instance : Inhabited (Config K) := ⟨Config.standard⟩

end Linkage
