import Linkage.Point

/-!
# Rails

A rail runs through two points. A captive is held at its `seat`, the nearest point of the rail: of
the whole line, or of the segment between the two points where the rail ends there.
-/

namespace Linkage.Rail

variable {K : Type} [Scalar K]

/-- Where a captive at `p` is held on the rail from `a` to `b`, and whether that is an end of the
rail rather than the nearest point of its line. -/
def seat (p a b : Point K) (ends : Bool) : Point K × Bool :=
  let onLine := Point.project p a b false
  if ends then
    let target := Point.project p a b true
    (target, decide (Scalar.tiny < Point.distance target onLine))
  else (onLine, false)

end Linkage.Rail
