import Linkage.Decimal.Digit

/-!
# Reading decimals

`readDecimal?` reads a sign, digits with an optional point and an optional power of ten, and gives
the nearest binary64 number. `readNumber?` reads as well what people write for numbers: digits of
any script, blanks around, single underscores between digits, and the names of infinity and of no
number.
-/

namespace Linkage.Decimal

def digitsVal (ds : List Char) : Nat :=
  ds.foldl (fun n c => 10 * n + (c.toNat - '0'.toNat)) 0

def splitSign : List Char → Bool × List Char
  | '-' :: r => (true, r)
  | '+' :: r => (false, r)
  | r => (false, r)

/-- `digits · 10 ^ shift` to the nearest binary64 number. Where the first digit stands beyond the
places that these numbers reach, it is infinite or zero. -/
def withoutSign (digits : Nat) (shift : Int) : Float :=
  let places := shift + (Nat.toDigits 10 digits).length
  if digits = 0 ∨ places < -400 then 0.0
  else if 400 < places then 1.0 / 0.0
  else if shift < 0 then Float.ofScientific digits true (-shift).toNat
  else Float.ofScientific digits false shift.toNat

/-- `± digits · 10 ^ shift` to the nearest binary64 number. -/
def nearest (negative : Bool) (digits : Nat) (shift : Int) : Float :=
  if negative then -withoutSign digits shift else withoutSign digits shift

/-- The nearest binary64 number, unless it is infinite. -/
def ofNat? (n : Nat) : Option Float :=
  let x := withoutSign n 0
  if x.isInf then none else some x

/-- The power of ten after the mark: a sign and at least one digit, or nothing at all. -/
def readExponent? : List Char → Option Int
  | [] => some 0
  | c :: r =>
    if c = 'e' ∨ c = 'E' then
      let (negative, ds) := splitSign r
      if ds ≠ [] ∧ ds.all Char.isDigit then
        some (if negative then -(digitsVal ds : Int) else digitsVal ds)
      else none
    else none

def readDecimal? (cs : List Char) : Option Float :=
  let (negative, r) := splitSign cs
  let whole := r.takeWhile Char.isDigit
  let r := r.dropWhile Char.isDigit
  let (part, r) := match r with
    | '.' :: r => (r.takeWhile Char.isDigit, r.dropWhile Char.isDigit)
    | r => ([], r)
  if whole = [] ∧ part = [] then none
  else (readExponent? r).map fun e =>
    nearest negative (digitsVal (whole ++ part)) (e - part.length)

/-- Underscores taken out; none unless each stands between two digits. -/
def dropUnderscores? : List Char → Option (List Char)
  | [] => some []
  | [c] => if c = '_' then none else some [c]
  | c :: d :: r =>
    if c = '_' then none
    else if d = '_' then
      match r with
      | e :: _ =>
        if c.isDigit ∧ e.isDigit then (dropUnderscores? r).map (c :: ·) else none
      | [] => none
    else (dropUnderscores? (d :: r)).map (c :: ·)

def trimmed (cs : List Char) : List Char :=
  ((cs.dropWhile isBlank).reverse.dropWhile isBlank).reverse

def readNumber? (s : String) : Option Float := do
  let cs := trimmed (← s.toList.mapM basic?)
  let (negative, body) := splitSign cs
  let name := String.ofList (body.map Char.toLower)
  if name = "inf" ∨ name = "infinity" then
    some (if negative then -(1.0 / 0.0) else 1.0 / 0.0)
  else if name = "nan" then some (0.0 / 0.0)
  else (dropUnderscores? cs).bind readDecimal?

end Linkage.Decimal
