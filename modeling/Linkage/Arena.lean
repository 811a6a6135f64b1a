/-!
# Arenas

An arena keeps objects that are known by reference: two holders of one reference see each other's
changes. References are handed out in order and stay good for ever.

`get_set_self`, `get_set_ne`, `get_alloc_self` and `get_alloc_of_lt` say what is read after a write
and after a new object; `ext` says that an arena is what can be read from it.
-/

namespace Linkage

/-- Names one object of an arena. -/
abbrev Ref := Nat

structure Arena (α : Type) where
  cells : Array α := #[]

namespace Arena

variable {α : Type} {a : Arena α} {r r' : Ref} {v : α}

def size (a : Arena α) : Nat := a.cells.size

def set (a : Arena α) (r : Ref) (v : α) : Arena α := ⟨a.cells.setIfInBounds r v⟩

/-- The reference that the next object gets. -/
def fresh (a : Arena α) : Ref := a.cells.size

def alloc (a : Arena α) (v : α) : Arena α := ⟨a.cells.push v⟩

@[simp] theorem size_set : (a.set r v).size = a.size := by simp [set, size]

@[simp] theorem size_alloc : (a.alloc v).size = a.size + 1 := by simp [alloc, size]

variable [Inhabited α]

def get (a : Arena α) (r : Ref) : α := a.cells.getD r default

def modify (a : Arena α) (r : Ref) (f : α → α) : Arena α := a.set r (f (a.get r))

theorem get_set_self (h : r < a.size) : (a.set r v).get r = v := by
  have : r < a.cells.size := h
  simp [set, get, Array.getD, this]

theorem get_set_ne (h : r' ≠ r) : (a.set r v).get r' = a.get r' := by
  simp [set, get, Array.getD_eq_getD_getElem?, Array.getElem?_setIfInBounds_ne (Ne.symm h)]

theorem get_alloc_self : (a.alloc v).get a.fresh = v := by
  simp [alloc, get, fresh, Array.getD_eq_getD_getElem?]

theorem get_alloc_of_lt (h : r < a.size) : (a.alloc v).get r = a.get r := by
  have hc : r < a.cells.size := h
  simp [alloc, get, Array.getD_eq_getD_getElem?, Array.getElem?_push_lt, hc]

theorem get_of_size_le (h : a.size ≤ r) : a.get r = default := by
  have hc : a.cells.size ≤ r := h
  simp [get, Array.getD_eq_getD_getElem?, hc]

@[simp] theorem size_modify (f : α → α) : (a.modify r f).size = a.size := size_set

theorem get_modify_self (f : α → α) (h : r < a.size) : (a.modify r f).get r = f (a.get r) :=
  get_set_self h

theorem get_modify_ne (f : α → α) (h : r' ≠ r) : (a.modify r f).get r' = a.get r' := get_set_ne h

/-- Arenas of one size that hold the same objects are the same. -/
theorem ext {b : Arena α} (hs : a.size = b.size) (h : ∀ r < a.size, a.get r = b.get r) : a = b := by
  obtain ⟨a⟩ := a
  obtain ⟨b⟩ := b
  congr
  refine Array.ext hs fun i hi hj => ?_
  have := h i hi
  simpa [get, Array.getD, hi, hj] using this

end Arena

end Linkage
