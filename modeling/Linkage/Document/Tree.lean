import Linkage.Document.Entries
import Linkage.Document.Plain

/-!
# The tree of a document

A `Tree` is a document as it is written: nothing in it is refused yet, and entries may repeat a key.
Its faults (`faults`) come in the order in which values are made of it: a collection is filled after
all collections around it and after those to its left that stand as deep as it does. A tree without
faults has a `value`.
-/

namespace Linkage.Document

inductive Tree where
  | leaf (l : Leaf)
  | seq (items : List Tree)
  | mapping (entries : List (Tree × Tree))
  /-- A mapping that takes over the entries of what has none. -/
  | broken
deriving Inhabited

namespace Tree

def null : Tree := leaf (.value .null)

/-! ### Entries taken over -/

def entries? : Tree → Option (List (Tree × Tree))
  | mapping entries => some entries
  | _ => none

/-- The entries of a mapping, or of a sequence of mappings, of which the first one counts most. -/
def lent? : Tree → Option (List (Tree × Tree))
  | mapping entries => some entries
  | seq items => (items.mapM entries?).map (·.reverse.flatten)
  | _ => none

def isMerge : Tree → Bool
  | leaf .merge => true
  | _ => false

/-- An equals sign is a text where it is a key. -/
def asKey : Tree → Tree
  | leaf .equals => leaf (.value (.text "="))
  | t => t

/-- A mapping. What it takes over stands before its own entries. -/
def ofEntries (entries : List (Tree × Tree)) : Tree :=
  let (merges, own) := entries.partition fun e => e.1.isMerge
  match merges.mapM fun e => e.2.lent? with
  | some lent => mapping (lent.flatten ++ own.map fun e => (e.1.asKey, e.2))
  | none => broken

/-! ### Faults -/

end Tree

def Leaf.fault? : Leaf → Option Fault
  | .value _ => none
  | .merge | .equals => some .meaningless
  | .fault f => some f

namespace Tree

/-- Two lists of rounds as one: in each round first the one, then the other. -/
def together : List (List Fault) → List (List Fault) → List (List Fault)
  | [], r => r
  | r, [] => r
  | a :: r, b :: r' => (a ++ b) :: together r r'

mutual

/-- The faults that show in each round. In the first round a scalar is read and a collection is
merely opened; it is filled in the next. -/
def rounds : Tree → List (List Fault)
  | leaf l => [l.fault?.toList]
  | seq items => [] :: roundsOfAll items
  | mapping entries => [] :: roundsOfEntries entries
  | broken => [[], [.meaningless]]

def roundsOfAll : List Tree → List (List Fault)
  | [] => []
  | t :: ts => together (rounds t) (roundsOfAll ts)

/-- A collection is no key. -/
def roundsOfEntries : List (Tree × Tree) → List (List Fault)
  | [] => []
  | (leaf k, v) :: es => together [k.fault?.toList] (together (rounds v) (roundsOfEntries es))
  | (_, v) :: es => together [[.meaningless]] (together (rounds v) (roundsOfEntries es))

end

def faults (t : Tree) : List Fault := t.rounds.flatten

/-! ### Values -/

mutual

/-- Where there is a fault there is no value, and null stands there. -/
def value : Tree → Value Float
  | leaf (.value v) => v
  | leaf _ => .null
  | seq items => .seq (values items)
  | mapping entries => .mapping (filled [] entries)
  | broken => .null

def values : List Tree → List (Value Float)
  | [] => []
  | t :: ts => value t :: values ts

def filled (done : List (Value Float × Value Float)) :
    List (Tree × Tree) → List (Value Float × Value Float)
  | [] => done
  | (k, v) :: es => filled (put (value k) (value v) done) es

end

end Tree

end Linkage.Document
