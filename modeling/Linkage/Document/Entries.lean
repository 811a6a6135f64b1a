import Linkage.Decimal.Binary
import Linkage.Value

/-!
# Entries of a mapping

A mapping has one entry under each key: a later one takes the place of an earlier one with the same
key (`put`). Keys that are numbers are the same if they are equal as numbers, however they are
written.
-/

namespace Linkage.Document

def isWhole (n : Int) : Decimal.Parts → Bool
  | .finite negative m q =>
    let m : Int := if negative then -m else m
    m * Nat.pow 2 q.toNat == n * Nat.pow 2 (-q).toNat
  | _ => false

def integer? : Number Float → Option Int
  | .whole n => some n
  | .flag b => some (if b then 1 else 0)
  | .real _ => none

/-- What is not a number is the same as itself. -/
def sameNumber (a b : Number Float) : Bool :=
  match a, b with
  | .real x, .real y => x == y || (x.isNaN && y.isNaN)
  | .real x, b => (integer? b).any fun n => isWhole n (.ofFloat x)
  | a, .real y => (integer? a).any fun n => isWhole n (.ofFloat y)
  | a, b => integer? a == integer? b

/-- Collections are no keys. -/
def sameKey : Value Float → Value Float → Bool
  | .null, .null => true
  | .number a, .number b => sameNumber a b
  | .text s, .text t => s == t
  | .moment m, .moment n => m == n
  | _, _ => false

/-- The entries with a value put under a key. The key stays as it was first written. -/
def put (key value : Value Float) :
    List (Value Float × Value Float) → List (Value Float × Value Float)
  | [] => [(key, value)]
  | e :: rest => if sameKey e.1 key then (e.1, value) :: rest else e :: put key value rest

end Linkage.Document
