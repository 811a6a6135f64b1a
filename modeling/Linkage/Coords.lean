import Linkage.Point
import Linkage.Failure

/-!
# Points as given

A caller may give a point as rows of numbers, nested to any depth. `Coords.toPoint` reads the
numbers off in order; there have to be two, and rows side by side have to be alike and not nested
too deep.
-/

namespace Linkage

inductive Coords (K : Type) where
  | number (x : K)
  /-- A whole number too large to be measured with. -/
  | huge
  /-- A text that is no number. -/
  | word
  /-- A value that cannot be read as numbers at all. -/
  | record
  | row (items : List (Coords K))
deriving Inhabited

namespace Coords

variable {K : Type}

mutual

/-- How many items a row has at each depth; none where rows side by side differ. -/
def shape? : Coords K → Option (List Nat)
  | row [] => some [0]
  | row (c :: cs) => do
    let inner ← shape? c
    if alike inner cs then some ((cs.length + 1) :: inner) else none
  | _ => some []

def alike (inner : List Nat) : List (Coords K) → Bool
  | [] => true
  | c :: cs => shape? c == some inner && alike inner cs

end

mutual

/-- The numbers from first to last, up to the first item that is none. -/
def numbers : Coords K → Except (Failure K) (List K)
  | number x => .ok [x]
  | huge => .error .tooLarge
  | word => .error .malformedNumber
  | record => .error .notANumber
  | row items => rowNumbers items

def rowNumbers : List (Coords K) → Except (Failure K) (List K)
  | [] => .ok []
  | c :: cs => do
    let xs ← numbers c
    let ys ← rowNumbers cs
    return xs ++ ys

end

/-- Rows are nested no deeper than this. -/
def maxDepth : Nat := 64

/-- The numbers in order, once the rows are seen to be alike. -/
def flat (c : Coords K) : Except (Failure K) (List K) :=
  if c.shape?.any (·.length ≤ maxDepth) then c.numbers else .error .malformedNumber

def toPoint (c : Coords K) : Except (Failure K) (Point K) := do
  match ← c.flat with
  | [x, y] => return ⟨x, y⟩
  | xs => throw (.componentCount xs.length)

/-- The point of two coordinates given one by one, each of them a number or a row that holds no
other. -/
def pair (x y : Coords K) : Except (Failure K) (Point K) := do
  match ← (row [x, y]).flat with
  | [x, y] => return ⟨x, y⟩
  | _ => throw .notANumber

def ofPoint (p : Point K) : Coords K := row [number p.x, number p.y]

end Coords

end Linkage
