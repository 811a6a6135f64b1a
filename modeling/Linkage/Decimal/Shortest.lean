import Linkage.Decimal.Binary
import Linkage.Decimal.Grid

/-!
# Shortest decimals

The decimals that read back as a given binary64 number fill an interval around it. `shortest` looks
on ever finer grids for one of them: the first grid that has one gives the fewest digits, and of two
on that grid the nearer is taken. `Layout` says how the digits are set.
-/

namespace Linkage.Decimal

/-- The numbers that read back as `m · 2 ^ q`, in units of `2 ^ (q - 2)`: below a power of two the
neighbour is half as far away. The ends belong to it when `m` is even. -/
structure Basin where
  low : Nat
  high : Nat
  closed : Bool
deriving Repr

def Basin.of (m : Nat) (q : Int) : Basin where
  low := if m = Nat.pow 2 52 ∧ q ≠ -1074 then 4 * m - 1 else 4 * m - 2
  high := 4 * m + 2
  closed := m % 2 == 0

/-- `c · 10 ^ k` lies in the basin. -/
def Basin.contains (b : Basin) (q k : Int) (c : Nat) : Bool :=
  let (lowNum, den) := onGrid b.low (q - 2) k
  let (highNum, _) := onGrid b.high (q - 2) k
  if b.closed then decide (lowNum ≤ c * den) && decide (c * den ≤ highNum)
  else decide (lowNum < c * den) && decide (c * den < highNum)

/-- The point of the grid of step `10 ^ k` that reads back as `m · 2 ^ q`, if there is one: the
nearer of the two neighbours, the even one on a tie. -/
def onGridBack? (m : Nat) (q k : Int) : Option Nat :=
  let b := Basin.of m q
  let (num, den) := onGrid m q k
  let near := roundDiv num den
  let other := if near * den ≤ num then near + 1 else near - 1
  if b.contains q k near then some near
  else if b.contains q k other then some other
  else none

/-- The first grid from `digits` digits on that reads back; `17` digits always do. -/
def searchDigits (m : Nat) (q e : Int) : (fuel digits : Nat) → Nat × Int
  | 0, digits =>
    let k := e - digits + 1
    let (num, den) := onGrid m q k
    (roundDiv num den, k)
  | fuel + 1, digits =>
    let k := e - digits + 1
    match onGridBack? m q k with
    | some c => (c, k)
    | none => searchDigits m q e fuel (digits + 1)

/-- The fewest digits `c` with an exponent `k` such that `c · 10 ^ k` reads back as `m · 2 ^ q`. -/
def shortest (m : Nat) (q : Int) : Nat × Int :=
  if m = 0 then (0, 0)
  else
    let (num, den) := onGrid m q 0
    let (c, k) := searchDigits m q (magnitude num den) 16 1
    let (c, zeros) := stripZeros 17 c
    (c, k + zeros)

/-- How digits are set: the exponents written with a plain point run from `least` up to but without
`bound`; any other exponent is written with its sign and at least `width` digits. -/
structure Layout where
  least : Int
  bound : Int
  width : Nat
deriving Repr

def Layout.exponent (l : Layout) (e : Int) : List Char :=
  let ds := Nat.toDigits 10 e.natAbs
  'e' :: (if e < 0 then '-' else '+') :: (List.replicate (l.width - ds.length) '0' ++ ds)

/-- The digits of `c · 10 ^ k` set in the layout; a whole number ends in `.0`. -/
def Layout.set (l : Layout) (c : Nat) (k : Int) : List Char :=
  let ds := Nat.toDigits 10 c
  let e := k + ds.length - 1
  if c = 0 then ['0', '.', '0']
  else if l.least ≤ e ∧ e < l.bound then
    if e < 0 then '0' :: '.' :: (List.replicate (-e - 1).toNat '0' ++ ds)
    else
      let whole := (ds ++ List.replicate k.toNat '0').take (e + 1).toNat
      let rest := ds.drop (e + 1).toNat
      whole ++ '.' :: (if rest = [] then ['0'] else rest)
  else
    match ds with
    | [] => l.exponent e
    | d :: rest => d :: ((if rest = [] then [] else '.' :: rest) ++ l.exponent e)

/-- A binary64 number in the fewest digits that read back. -/
def Layout.write (l : Layout) (x : Float) : String :=
  match Parts.ofFloat x with
  | .undefined => "nan"
  | .infinite negative => if negative then "-inf" else "inf"
  | .finite negative m q =>
    let (c, k) := shortest m q
    String.ofList (if negative then '-' :: l.set c k else l.set c k)

end Linkage.Decimal
