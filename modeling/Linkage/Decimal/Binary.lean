/-!
# Binary64 numbers taken apart

`Parts.ofFloat` reads a binary64 number as a sign, a whole number `m` and an exponent `q`, which
stand for `m · 2 ^ q`. Every printer of this library starts from there and goes on in exact whole
number arithmetic.
-/

namespace Linkage.Decimal

/-- A binary64 number as an exact quantity. -/
inductive Parts where
  | undefined
  | infinite (negative : Bool)
  /-- `± m · 2 ^ q`; zero keeps its sign. -/
  | finite (negative : Bool) (m : Nat) (q : Int)
deriving Repr, DecidableEq

namespace Parts

/-- Exponent `0` has no hidden bit, exponent `2047` has no value. -/
def ofBits (bits : Nat) : Parts :=
  let negative := bits / Nat.pow 2 63 % 2 == 1
  let e : Nat := bits / Nat.pow 2 52 % Nat.pow 2 11
  let f : Nat := bits % Nat.pow 2 52
  if e = 2047 then
    if f = 0 then .infinite negative else .undefined
  else if e = 0 then .finite negative f (-1074)
  else .finite negative (Nat.pow 2 52 + f) ((e : Int) - 1075)

def ofFloat (x : Float) : Parts := ofBits x.toBits.toNat

/-- The least integer that is not below `± m · 2 ^ q`. -/
def ceiling (negative : Bool) (m : Nat) (q : Int) : Int :=
  let den := Nat.pow 2 (-q).toNat
  let num := m * Nat.pow 2 q.toNat
  if negative then -((num / den : Nat) : Int) else ((num + den - 1) / den : Nat)

end Parts

end Linkage.Decimal
