import Linkage.Decimal.Binary
import Linkage.Decimal.Grid

/-!
# Fixed places

`fixed places x` writes a binary64 number with a fixed count of digits after the point, rounded from
its exact value; a tie goes to the even digit. A negative number keeps its sign even where every
digit written is zero.
-/

namespace Linkage.Decimal

def padded (width n : Nat) : List Char :=
  let ds := Nat.toDigits 10 n
  List.replicate (width - ds.length) '0' ++ ds

/-- A whole number of `10 ^ -places` with its point put in. -/
def withPoint (places r : Nat) : String :=
  let ds := padded (places + 1) r
  let head := ds.take (ds.length - places)
  let tail := ds.drop (ds.length - places)
  String.ofList (if places = 0 then head else head ++ '.' :: tail)

def fixed (places : Nat) (x : Float) : String :=
  match Parts.ofFloat x with
  | .undefined => "nan"
  | .infinite negative => if negative then "-inf" else "inf"
  | .finite negative m q =>
    let (num, den) := onGrid m q (-(places : Int))
    let body := withPoint places (roundDiv num den)
    if negative then "-" ++ body else body

end Linkage.Decimal
