import Linkage.Point

/-!
# Angles and chords

Two arms of a pivot and the chord between their tips make a triangle. `Triangle.chord` finds the
chord from the angle between the arms, `Triangle.angle` the angle from the chord. Angles are in
degrees.
-/

namespace Linkage.Triangle

variable {K : Type} [Scalar K]

/-- The distance of the tips of arms `a` and `b` opened to `t` degrees, which counts as straight or
closed where it is beyond that. -/
def chord (a b t : K) : K :=
  let theta := Scalar.radians (Scalar.clamp 0.0 180.0 t)
  Scalar.sqrt (Scalar.larger (a * a + b * b - 2.0 * a * b * Scalar.cos theta) 0.0)

/-- The angle between arms `a` and `b` opposite the chord `c`; zero where an arm has no length. -/
def angle (a b c : K) : K :=
  if a < Scalar.tiny ∨ b < Scalar.tiny then 0.0
  else
    let cosine := (a * a + b * b - c * c) / (2.0 * a * b)
    Scalar.degrees (Scalar.acos (Scalar.clamp (-1.0) 1.0 cosine))

end Linkage.Triangle
