import Linkage.Decimal.Fixed
import Linkage.Decimal.Shortest
import Linkage.Name
import Linkage.Scalar.Binary
import Linkage.Text.Moment
import Linkage.Text.Quoted
import Linkage.Value

/-!
# Numbers and values in messages

A number is written the way it was given: a whole number in its digits, a decimal in the fewest
digits that read back, a truth value by its name. Texts inside a list or a mapping are quoted, and
dates there are written as the call that makes them; a value that is a text or a date by itself can
be shown bare (`plain`) or as inside a list (`shown`).
-/

namespace Linkage.Text

/-- Decimals from `1e-4` up to `1e16` are written without a power of ten. -/
def decimals : Decimal.Layout := ⟨-4, 16, 2⟩

def decimal (x : Float) : String := decimals.write x

def flag (b : Bool) : String := if b then "True" else "False"

def number : Number Float → String
  | .whole n => toString n
  | .real x => decimal x
  | .flag b => flag b

def orNone {α : Type} (write : α → String) : Option α → String
  | none => "None"
  | some a => write a

def key (k : Key) : String := orNone toString k

def listed (xs : List String) : String := "[" ++ ", ".intercalate xs ++ "]"

mutual

def shown : Value Float → String
  | .null => "None"
  | .number n => number n
  | .text s => quoted s
  | .moment m => momentCall m
  | .seq items => listed (shownAll items)
  | .mapping entries => "\x7b" ++ ", ".intercalate (shownEntries entries) ++ "\x7d"

def shownAll : List (Value Float) → List String
  | [] => []
  | v :: vs => shown v :: shownAll vs

def shownEntries : List (Value Float × Value Float) → List String
  | [] => []
  | (k, v) :: rest => (shown k ++ ": " ++ shown v) :: shownEntries rest

end

def plain : Value Float → String
  | .text s => s
  | .moment m => moment m
  | v => shown v

end Linkage.Text
