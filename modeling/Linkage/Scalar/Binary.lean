import Linkage.Scalar
import Linkage.Decimal.Binary

/-!
# Binary64 numbers as scalars

The length of a vector is computed on coordinates scaled by a power of two, so that their squares
neither overflow nor vanish, and with the rounding errors of the squares put back, so that the last
place is right in all but rare ties.
-/

namespace Linkage.Binary64

/-- `x` as the sum of two numbers of half the digits. -/
def halves (x : Float) : Float × Float :=
  let c := x * 134217729.0
  let high := c - (c - x)
  (high, x - high)

/-- `x * x` and the error of that product. -/
def square (x : Float) : Float × Float :=
  let p := x * x
  let (h, l) := halves x
  (p, ((h * h - p) + 2.0 * h * l) + l * l)

/-- The root of `a² + b²` for `b ≤ a` with `a` between one half and one. -/
def scaledHypot (a b : Float) : Float :=
  let (aa, ea) := square a
  let (bb, eb) := square b
  let s := aa + bb
  let lost := (aa - s) + bb
  let r := s.sqrt
  let (rr, er) := square r
  let rest := ((s - rr) - er) + (lost + (ea + eb))
  r + rest / (2.0 * r)

/-- An infinite coordinate makes the length infinite, whatever the other one is. -/
def hypot (x y : Float) : Float :=
  let x := x.abs
  let y := y.abs
  if x.isInf || y.isInf then 1.0 / 0.0
  else if x.isNaN || y.isNaN then 0.0 / 0.0
  else
    let a := if x < y then y else x
    let b := if x < y then x else y
    if a == 0.0 then 0.0
    else
      let e := a.frExp.2
      (scaledHypot (a.scaleB (-e)) (b.scaleB (-e))).scaleB e

def ceil (x : Float) : Except Unbounded Int :=
  match Decimal.Parts.ofFloat x with
  | .undefined => .error .undefined
  | .infinite _ => .error .infinite
  | .finite negative m q => .ok (Decimal.Parts.ceiling negative m q)

instance : Scalar Float where
  decLt := inferInstance
  decLe := inferInstance
  sqrt := Float.sqrt
  hypot := hypot
  sin := Float.sin
  cos := Float.cos
  acos := Float.acos
  atan2 := Float.atan2
  pi := 3.141592653589793
  ofInt := Float.ofInt
  ceil := ceil

end Linkage.Binary64
