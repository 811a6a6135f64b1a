/-!
# Decimal grids

The grid of step `10 ^ k` holds the multiples of `10 ^ k`. `onGrid` measures `m · 2 ^ q` in steps of
a grid, as an exact fraction; `roundDiv` takes such a fraction to the nearest grid point, a tie to
the even one; `magnitude` finds the power of ten that a positive fraction starts in.
-/

namespace Linkage.Decimal

/-- `num / den` rounded to the nearest whole number, a half to the even neighbour. -/
def roundDiv (num den : Nat) : Nat :=
  let low := num / den
  let rest := num % den
  if 2 * rest < den then low
  else if den < 2 * rest then low + 1
  else if low % 2 = 0 then low else low + 1

/-- `m · 2 ^ q / 10 ^ k` as numerator and denominator. -/
def onGrid (m : Nat) (q k : Int) : Nat × Nat :=
  (m * Nat.pow 2 q.toNat * Nat.pow 10 (-k).toNat, Nat.pow 2 (-q).toNat * Nat.pow 10 k.toNat)

def digitCount (n : Nat) : Nat := (Nat.toDigits 10 n).length

/-- The `e` with `10 ^ e ≤ num / den < 10 ^ (e + 1)`, for a positive fraction. -/
def magnitude (num den : Nat) : Int :=
  if den ≤ num then (digitCount (num / den) : Int) - 1
  else -(digitCount ((den - 1) / num) : Int)

/-- `n` without the zeros it ends in, and how many they were; `fuel` bounds them. -/
def stripZeros : (fuel n : Nat) → Nat × Nat
  | 0, n => (n, 0)
  | fuel + 1, n =>
    if n ≠ 0 ∧ n % 10 = 0 then
      let (r, k) := stripZeros fuel (n / 10)
      (r, k + 1)
    else (n, 0)

end Linkage.Decimal
