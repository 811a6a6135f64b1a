import Linkage.Moment
import Linkage.Scalar

/-!
# Values as written

A `Number` remembers how it was written: as a whole number, as a decimal, or as a truth value, which
counts as one or zero. A `Value` is what a configuration may hold in any place.
-/

namespace Linkage

inductive Number (K : Type) where
  | whole (n : Int)
  | real (x : K)
  | flag (b : Bool)
deriving Repr, Inhabited

inductive Value (K : Type) where
  | null
  | number (n : Number K)
  | text (s : String)
  | moment (m : Moment)
  | seq (items : List (Value K))
  | mapping (entries : List (Value K × Value K))
deriving Inhabited

variable {K : Type} [Scalar K]

def Number.val : Number K → K
  | .whole n => Scalar.ofInt n
  | .real x => x
  | .flag b => Scalar.ofInt (if b then 1 else 0)

def Number.isTrue : Number K → Bool
  | .whole n => n ≠ 0
  | .real x => !Scalar.isZero x
  | .flag b => b

namespace Value

/-- What a value says where a yes or no is asked for: nothing, zero and whatever is empty say no. -/
def isTrue : Value K → Bool
  | null => false
  | number n => n.isTrue
  | text s => s ≠ ""
  | moment _ => true
  | seq items => !items.isEmpty
  | mapping entries => !entries.isEmpty

def number? : Value K → Option (Number K)
  | number n => some n
  | _ => none

def isKey (key : String) : Value K → Bool
  | text s => s == key
  | _ => false

/-- The entry under a key; the last one counts where the key is repeated. -/
def lookup (key : String) (entries : List (Value K × Value K)) : Option (Value K) :=
  (entries.reverse.find? fun e => isKey key e.1).map Prod.snd

end Value

end Linkage
