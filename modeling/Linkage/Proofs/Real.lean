import Mathlib.Analysis.SpecialFunctions.Complex.Arg
import Mathlib.Analysis.SpecialFunctions.Trigonometric.Inverse
import Linkage.Point

/-!
# Scenes over the reals

The reals are scalars, with their own order and functions. What is said of them is said of exact
arithmetic, where nothing is rounded.
-/

namespace Linkage

noncomputable instance : Scalar ℝ where
  toAdd := inferInstance
  toSub := inferInstance
  toMul := inferInstance
  toDiv := inferInstance
  toNeg := inferInstance
  toLT := inferInstance
  toLE := inferInstance
  toOfScientific := inferInstance
  decLt := Classical.decRel _
  decLe := Classical.decRel _
  sqrt := Real.sqrt
  hypot x y := √(x ^ 2 + y ^ 2)
  sin := Real.sin
  cos := Real.cos
  acos := Real.arccos
  atan2 y x := Complex.arg ⟨x, y⟩
  pi := Real.pi
  ofInt n := n
  ceil x := .ok ⌈x⌉

namespace Scalar

theorem larger_eq (x y : ℝ) : larger x y = max x y := by
  unfold larger
  rcases lt_or_ge x y with h | h
  · rw [if_pos h, max_eq_right h.le]
  · rw [if_neg h.not_gt, max_eq_left h]

theorem smaller_eq (x y : ℝ) : smaller x y = min x y := by
  unfold smaller
  rcases lt_or_ge y x with h | h
  · rw [if_pos h, min_eq_right h.le]
  · rw [if_neg h.not_gt, min_eq_left h]

theorem clamp_eq (lo hi x : ℝ) : clamp lo hi x = min (max x lo) hi := by
  rw [clamp, smaller_eq, larger_eq]

theorem clamp_mem {lo hi : ℝ} (h : lo ≤ hi) (x : ℝ) : clamp lo hi x ∈ Set.Icc lo hi := by
  rw [clamp_eq]
  exact ⟨le_min (le_max_right x lo) h, min_le_right _ hi⟩

theorem clamp_of_mem {lo hi x : ℝ} (h : x ∈ Set.Icc lo hi) : clamp lo hi x = x := by
  rw [clamp_eq, max_eq_left h.1, min_eq_left h.2]

theorem clamp_of_le {lo hi x : ℝ} (h : lo ≤ hi) (hx : x ≤ lo) : clamp lo hi x = lo := by
  rw [clamp_eq, max_eq_right hx, min_eq_left h]

theorem clamp_of_ge {lo hi x : ℝ} (h : lo ≤ hi) (hx : hi ≤ x) : clamp lo hi x = hi := by
  rw [clamp_eq, max_eq_left (h.trans hx), min_eq_right hx]

theorem clamp_monotone (lo hi : ℝ) : Monotone (clamp lo hi) := by
  intro x y hxy
  rw [clamp_eq, clamp_eq]
  exact min_le_min_right hi (max_le_max_right lo hxy)

theorem zero_eq : (0.0 : ℝ) = 0 := by norm_num

theorem not_le_zero {x : ℝ} (h : 0 < x) : ¬ x ≤ 0.0 := by
  rw [zero_eq]
  exact h.not_ge

theorem tiny_pos : (0 : ℝ) < tiny := by
  unfold tiny
  norm_num

theorem isZero_iff {x : ℝ} : isZero x ↔ x = 0 := by
  simp only [isZero, same, Bool.and_eq_true, decide_eq_true_eq, zero_eq]
  exact le_antisymm_iff.symm

theorem isZero_eq_false {x : ℝ} (hx : x ≠ 0) : isZero x = false :=
  Bool.eq_false_iff.2 (mt isZero_iff.1 hx)

end Scalar

namespace Point

theorem zero_eq : (zero : Point ℝ) = ⟨0, 0⟩ := by
  unfold zero
  rw [Scalar.zero_eq]

/-! A vector of the plane without length adds nothing. -/

@[simp] theorem add_zero (v : Point ℝ) : v + zero = v := by
  rw [zero_eq]
  show Point.mk (v.x + 0) (v.y + 0) = v
  simp

@[simp] theorem smul_zero (k : ℝ) : k * (zero : Point ℝ) = zero := by
  rw [zero_eq]
  show Point.mk (k * 0) (k * 0) = _
  simp

@[simp] theorem zero_smul (v : Point ℝ) : (0 : ℝ) * v = zero := by
  rw [zero_eq]
  show Point.mk (0 * v.x) (0 * v.y) = _
  simp

@[simp] theorem neg_zero : -(zero : Point ℝ) = zero := by
  rw [zero_eq]
  show Point.mk (-0 : ℝ) (-0) = _
  simp

@[simp] theorem zero_dot (v : Point ℝ) : dot zero v = 0 := by
  rw [zero_eq]
  simp [dot]

variable (a b c : Point ℝ)

theorem distance_eq : distance a b = √((b.x - a.x) ^ 2 + (b.y - a.y) ^ 2) := rfl

theorem distance_nonneg : 0 ≤ distance a b := Real.sqrt_nonneg _

theorem distance_comm : distance a b = distance b a := by
  rw [distance_eq, distance_eq]
  congr 1
  ring

/-- Points of the plane as complex numbers, where the triangle inequality is at hand. -/
theorem distance_eq_norm :
    distance a b = ‖(⟨b.x, b.y⟩ : ℂ) - ⟨a.x, a.y⟩‖ := by
  rw [distance_eq, Complex.norm_eq_sqrt_sq_add_sq]
  rfl

theorem distance_triangle : distance a c ≤ distance a b + distance b c := by
  simp only [distance_eq_norm]
  have := norm_add_le ((⟨b.x, b.y⟩ : ℂ) - ⟨a.x, a.y⟩) (⟨c.x, c.y⟩ - ⟨b.x, b.y⟩)
  rwa [sub_add_sub_cancel'] at this

theorem distance_eq_zero_iff : distance a b = 0 ↔ a = b := by
  rw [distance_eq_norm, norm_eq_zero, sub_eq_zero, Complex.ext_iff]
  cases a
  cases b
  simp [eq_comm]

end Point

end Linkage
