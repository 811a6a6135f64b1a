/-!
# The numbers a scene is measured in

`Scalar K` is what the solver asks of its numbers: the four operations, an order, square root and
the trigonometric functions. No law is asked for, so binary64 numbers are scalars as well as the
reals, and what is shown for every `Scalar` holds of both.

`larger`, `smaller` and `clamp` keep their first argument unless the other one is strictly beyond
it. With binary64 numbers this lets a first argument that is not a number through.
-/

namespace Linkage

inductive Unbounded where
  | infinite
  | undefined
deriving Repr, DecidableEq

/-- A number system to measure lengths, forces and times in. -/
class Scalar (K : Type) extends Add K, Sub K, Mul K, Div K, Neg K, LT K, LE K, OfScientific K where
  decLt : DecidableLT K
  decLe : DecidableLE K
  sqrt : K → K
  hypot : K → K → K
  sin : K → K
  cos : K → K
  /-- The angle in `[0, π]` with this cosine. -/
  acos : K → K
  /-- `atan2 y x` is the direction of the vector `(x, y)`. -/
  atan2 : K → K → K
  pi : K
  /-- The nearest number; for whole numbers beyond all others it is infinite. -/
  ofInt : Int → K
  /-- The least integer that is not below. -/
  ceil : K → Except Unbounded Int

namespace Scalar

variable {K : Type} [Scalar K]

instance : DecidableLT K := Scalar.decLt
instance : DecidableLE K := Scalar.decLe

/-- The larger of two numbers, the first one unless the second is above it. -/
def larger (a b : K) : K := if a < b then b else a

/-- The smaller of two numbers, the first one unless the second is below it. -/
def smaller (a b : K) : K := if b < a then b else a

/-- `x` moved into `[lo, hi]`. -/
def clamp (lo hi x : K) : K := smaller (larger x lo) hi

/-- Neither number is below the other and both can be compared. -/
def same (a b : K) : Bool := decide (a ≤ b) && decide (b ≤ a)

def isZero (a : K) : Bool := same a 0.0

def abs (a : K) : K := if a < 0.0 then -a else a

/-- Lengths below this count as no length. -/
def tiny : K := 1e-12

def radians (degrees : K) : K := degrees * (pi / 180.0)

def degrees (radians : K) : K := radians * (180.0 / pi)

end Scalar

end Linkage
