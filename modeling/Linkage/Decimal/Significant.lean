import Linkage.Decimal.Binary
import Linkage.Decimal.Grid

/-!
# Significant digits

`significant digits floor x` rounds a binary64 number to a count of significant digits, but never to
a finer grid than the step `10 ^ floor`, and writes it as a whole number without end zeros, followed
by its power of ten.
-/

namespace Linkage.Decimal

/-- `r · 10 ^ k` as written, zero bare. -/
def scaled (negative : Bool) (r : Nat) (k : Int) : String :=
  if r = 0 then "0"
  else
    let (c, zeros) := stripZeros (digitCount r) r
    let sign := if negative then "-" else ""
    sign ++ toString c ++ "e" ++ toString (k + zeros)

/-- The step to round `m · 2 ^ q` on. -/
def gridFor (digits : Nat) (floor : Option Int) (m : Nat) (q : Int) : Int :=
  let (num, den) := onGrid m q 0
  let k := magnitude num den - digits + 1
  match floor with
  | none => k
  | some f => max k f

def significant (digits : Nat) (floor : Option Int) (x : Float) : String :=
  match Parts.ofFloat x with
  | .undefined => "nan"
  | .infinite negative => if negative then "-inf" else "inf"
  | .finite negative m q =>
    if m = 0 then "0"
    else
      let k := gridFor digits floor m q
      let (num, den) := onGrid m q k
      scaled negative (roundDiv num den) k

/-- A binary64 number in digits enough to tell it from every other, the sign of zero kept. -/
def exact (x : Float) : String :=
  match Parts.ofFloat x with
  | .finite true 0 _ => "-0"
  | _ => significant 17 none x

end Linkage.Decimal
