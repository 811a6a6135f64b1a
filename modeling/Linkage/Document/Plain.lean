import Linkage.Decimal.Reading
import Linkage.Document.Property
import Linkage.Value

/-!
# Values by their form

A scalar that stands without quotes is read by its form (`plain`): as nothing, as a yes or no, as a
decimal, as a whole number to base two, eight, ten, sixteen or sixty, as a date, and else as a text.
Underscores may stand between the digits of a number. A tag in front of a scalar may ask for a kind
of value whatever the form says (`Leaf.ofCore`).
-/

namespace Linkage.Document

/-- What a scalar stands for. -/
inductive Leaf where
  | value (v : Value Float)
  /-- The key of the mappings whose entries are taken over. -/
  | merge
  /-- An equals sign, which is a key and no value. -/
  | equals
  | fault (f : Fault)
deriving Inhabited

def nulls : List String := ["", "~", "null", "Null", "NULL"]

def yes : List String :=
  ["yes", "Yes", "YES", "true", "True", "TRUE", "on", "On", "ON"]

def no : List String :=
  ["no", "No", "NO", "false", "False", "FALSE", "off", "Off", "OFF"]

/-! ### Digits -/

def isBinary (c : Char) : Bool := c == '0' || c == '1' || c == '_'

def isOctal (c : Char) : Bool := ('0' ≤ c && c ≤ '7') || c == '_'

def isDecimal (c : Char) : Bool := c.isDigit || c == '_'

def isHex (c : Char) : Bool := isHexDigit c || c == '_'

def bare (cs : List Char) : List Char := cs.filter (· != '_')

def toBase (base : Nat) (ds : List Char) : Nat := ds.foldl (fun n c => base * n + digit c) 0

/-- The value of digits to a base, underscores left out. Some digit has to be left. -/
def digits (base : Nat) (cs : List Char) : Except Fault Nat :=
  if (bare cs).isEmpty then .error .noSuchValue else .ok (toBase base (bare cs))

/-- The value of digits to base ten, which are read up to a length. -/
def natural (cs : List Char) : Except Fault Nat :=
  if 4300 < (bare cs).length then .error .noSuchValue else digits 10 cs

/-! ### Places to base sixty -/

def pieces (cs : List Char) : List (List Char) := cs.splitOn ':'

/-- A place after the first one: one digit, or two digits below sixty. -/
def isSixtieth : List Char → Bool
  | [c] => c.isDigit
  | [c, d] => ('0' ≤ c && c ≤ '5') && d.isDigit
  | _ => false

/-- A first place that starts with a digit, then at least one further place. -/
def isSexagesimal (cs : List Char) : Bool :=
  match pieces cs with
  | (c :: first) :: rest =>
    c.isDigit && first.all isDecimal && !rest.isEmpty && rest.all isSixtieth
  | _ => false

/-! ### Whole numbers -/

def unsigned? (cs : List Char) : Option (Except Fault Nat) :=
  match cs with
  | ['0'] => some (.ok 0)
  | '0' :: 'b' :: c :: r => if (c :: r).all isBinary then some (digits 2 (c :: r)) else none
  | '0' :: 'x' :: c :: r => if (c :: r).all isHex then some (digits 16 (c :: r)) else none
  | '0' :: c :: r => if (c :: r).all isOctal then some (digits 8 cs) else none
  | c :: r =>
    if !c.isDigit then none
    else if r.all isDecimal then some (natural cs)
    else if isSexagesimal cs then
      some ((pieces cs).foldlM (fun n p => return 60 * n + (← natural p)) 0)
    else none
  | [] => none

def whole? (cs : List Char) : Option (Except Fault Int) :=
  let (negative, r) := Decimal.splitSign cs
  (unsigned? r).map (·.map fun n => if negative then -(n : Int) else n)

/-! ### Decimals -/

/-- A power of ten after a fraction has to show its sign. -/
def isExponent : List Char → Bool
  | [] => true
  | c :: s :: d :: r =>
    (c == 'e' || c == 'E') && (s == '-' || s == '+') && (d :: r).all Char.isDigit
  | _ => false

def isFraction (cs : List Char) : Bool := isExponent (cs.dropWhile isDecimal)

def isDecimalForm (cs : List Char) (signed : Bool) : Bool :=
  match cs with
  | '.' :: c :: r => !signed && c.isDigit && isFraction r
  | c :: r =>
    c.isDigit &&
      match r.dropWhile isDecimal with
      | '.' :: rest => isFraction rest
      | _ => false
  | [] => false

/-- Places to base sixty, the last one with a point and a fraction. -/
def isSexagesimalForm (cs : List Char) : Bool :=
  match cs.dropWhile (· != '.') with
  | '.' :: fraction => fraction.all isDecimal && isSexagesimal (cs.takeWhile (· != '.'))
  | _ => false

def part (cs : List Char) : Float := (Decimal.readDecimal? (bare cs)).getD 0.0

/-- The places summed from the last one on, each by its own weight. -/
def sexagesimal (cs : List Char) : Except Fault Float := do
  let terms ← (pieces cs).reverse.zipIdx.mapM fun (p, place) =>
    match Decimal.ofNat? (Nat.pow 60 place) with
    | some weight => Except.ok (part p * weight)
    | none => Except.error DocumentFault.tooLarge
  return terms.foldl (· + ·) 0.0

def unsignedDecimal? (cs : List Char) (signed : Bool) : Option (Except Fault Float) :=
  let name := String.ofList cs
  if name = ".inf" ∨ name = ".Inf" ∨ name = ".INF" then some (.ok (1.0 / 0.0))
  else if isDecimalForm cs signed then some (.ok (part cs))
  else if isSexagesimalForm cs then some (sexagesimal cs)
  else none

def decimal? (cs : List Char) : Option (Except Fault Float) :=
  let name := String.ofList cs
  if name = ".nan" ∨ name = ".NaN" ∨ name = ".NAN" then some (.ok (0.0 / 0.0))
  else
    let (negative, r) := Decimal.splitSign cs
    (unsignedDecimal? r (r.length < cs.length)).map (·.map fun x => if negative then -x else x)

/-! ### Dates -/

def upTo? (least most : Nat) (cs : List Char) : Option (Nat × List Char) :=
  let ds := (cs.take most).takeWhile Char.isDigit
  if ds.length < least then none else some (toBase 10 ds, cs.drop ds.length)

def after? (mark : Char) : List Char → Option (List Char)
  | c :: r => if c = mark then some r else none
  | [] => none

def isSpace (c : Char) : Bool := c == ' ' || c == '\t'

/-- The distance from universal time, in minutes, if there is one. -/
def offset? : List Char → Option (Option Int)
  | [] => some none
  | cs =>
    match cs.dropWhile isSpace with
    | ['Z'] => some (some 0)
    | sign :: r =>
      if sign = '+' ∨ sign = '-' then do
        let (hours, r) ← upTo? 1 2 r
        let (minutes, r) ← if r.isEmpty then some (0, r) else upTo? 2 2 (← after? ':' r)
        let n : Int := 60 * hours + minutes
        if r.isEmpty then some (some (if sign = '-' then -n else n)) else none
      else none
    | [] => none

def clock? (cs : List Char) : Option Clock := do
  let (hour, r) ← upTo? 1 2 cs
  let (minute, r) ← upTo? 2 2 (← after? ':' r)
  let (second, r) ← upTo? 2 2 (← after? ':' r)
  let (ds, r) := match r with
    | '.' :: r => (r.takeWhile Char.isDigit, r.dropWhile Char.isDigit)
    | r => ([], r)
  let micro := toBase 10 ((ds ++ List.replicate 6 '0').take 6)
  return ⟨hour, minute, second, micro, ← offset? r⟩

/-- A date with all its digits, or a date and a time of day. -/
def moment? (cs : List Char) : Option Moment := do
  let (year, r) ← upTo? 4 4 cs
  let (month, r) ← upTo? 1 2 (← after? '-' r)
  let (day, r) ← upTo? 1 2 (← after? '-' r)
  match r with
  | [] => if cs.length = 10 then some ⟨year, month, day, none⟩ else none
  | c :: r =>
    if c = 'T' ∨ c = 't' then return ⟨year, month, day, ← clock? r⟩
    else if isSpace c then return ⟨year, month, day, ← clock? (r.dropWhile isSpace)⟩
    else none

/-! ### All together -/

namespace Leaf

def ofText (s : String) : Leaf := .value (.text s)

def ofFlag (b : Bool) : Leaf := .value (.number (.flag b))

def ofNumber {α : Type} (number : α → Number Float) : Except Fault α → Leaf
  | .ok a => .value (.number (number a))
  | .error f => .fault f

def ofMoment (m : Moment) : Leaf :=
  if m.isValid then .value (.moment m) else .fault .noSuchValue

def ofCore (kind s : String) : Leaf :=
  let cs := s.toList
  match kind with
  | "null" => .value .null
  | "str" => ofText s
  | "bool" =>
    let word := s.map Char.toLower
    if word ∈ yes then ofFlag true
    else if word ∈ no then ofFlag false
    else .fault .noSuchWord
  | "int" => ofNumber .whole ((whole? cs).getD (.error .noSuchValue))
  | "float" =>
    let read := (Decimal.readNumber? (String.ofList (bare cs))).elim (.error .noSuchValue) .ok
    ofNumber .real ((decimal? cs).getD read)
  | "timestamp" => (moment? cs).elim (.fault .meaningless) ofMoment
  | _ => .fault .meaningless

end Leaf

def plain (s : String) : Leaf :=
  let cs := s.toList
  if s ∈ nulls then .value .null
  else if s ∈ yes then .ofFlag true
  else if s ∈ no then .ofFlag false
  else if s = "<<" then .merge
  else if s = "=" then .equals
  else
    match decimal? cs, whole? cs, moment? cs with
    | some x, _, _ => .ofNumber .real x
    | _, some n, _ => .ofNumber .whole n
    | _, _, some m => .ofMoment m
    | _, _, _ => .ofText s

/-- A scalar of the kind that its tag asks for. -/
def Leaf.ofKind (kind : Kind) (inQuotes : Bool) (s : String) : Leaf :=
  match kind with
  | .any => if inQuotes then ofText s else plain s
  | .form => plain s
  | .core name => ofCore name s
  | .foreign => .fault .meaningless

end Linkage.Document
