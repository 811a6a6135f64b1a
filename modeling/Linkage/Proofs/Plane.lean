import Mathlib.Algebra.Module.Basic
import Linkage.Proofs.Rail

/-!
# The plane as a vector space

Over the reals points add up in any order and may be scaled; their coordinates are read off by
`simp`. Lengths are a norm, and no projection makes a vector longer.
-/

namespace Linkage.Point

section

variable {K : Type} [Scalar K] (a b : Point K) (k : K)

@[simp] theorem add_x : (a + b).x = a.x + b.x := rfl

@[simp] theorem add_y : (a + b).y = a.y + b.y := rfl

@[simp] theorem sub_x : (a - b).x = a.x - b.x := rfl

@[simp] theorem sub_y : (a - b).y = a.y - b.y := rfl

@[simp] theorem neg_x : (-a).x = -a.x := rfl

@[simp] theorem neg_y : (-a).y = -a.y := rfl

@[simp] theorem mul_x : (k * a).x = k * a.x := rfl

@[simp] theorem mul_y : (k * a).y = k * a.y := rfl

@[simp] theorem div_x : (a / k).x = a.x / k := rfl

@[simp] theorem div_y : (a / k).y = a.y / k := rfl

end

noncomputable instance : Zero (Point ℝ) := ⟨zero⟩

theorem zero_def : (zero : Point ℝ) = 0 := rfl

@[simp] theorem zero_x : (0 : Point ℝ).x = 0 := by rw [← zero_def, zero_eq]

@[simp] theorem zero_y : (0 : Point ℝ).y = 0 := by rw [← zero_def, zero_eq]

noncomputable instance : AddCommGroup (Point ℝ) where
  nsmul := nsmulRec
  zsmul := zsmulRec
  add_assoc _ _ _ := ext_iff.2 ⟨add_assoc .., add_assoc ..⟩
  add_comm _ _ := ext_iff.2 ⟨add_comm .., add_comm ..⟩
  zero_add _ := ext_iff.2 ⟨by simp, by simp⟩
  add_zero _ := ext_iff.2 ⟨by simp, by simp⟩
  neg_add_cancel _ := ext_iff.2 ⟨by simp, by simp⟩
  sub_eq_add_neg _ _ := ext_iff.2 ⟨sub_eq_add_neg .., sub_eq_add_neg ..⟩

noncomputable instance : Module ℝ (Point ℝ) where
  smul k a := k * a
  one_smul _ := ext_iff.2 ⟨one_mul _, one_mul _⟩
  mul_smul _ _ _ := ext_iff.2 ⟨mul_assoc .., mul_assoc ..⟩
  smul_zero k := smul_zero k
  smul_add _ _ _ := ext_iff.2 ⟨mul_add .., mul_add ..⟩
  add_smul _ _ _ := ext_iff.2 ⟨add_mul .., add_mul ..⟩
  zero_smul a := zero_smul a

theorem smul_def (k : ℝ) (a : Point ℝ) : k • a = k * a := rfl

theorem div_eq_inv_mul (a : Point ℝ) (k : ℝ) : a / k = k⁻¹ * a :=
  ext_iff.2 ⟨by simp [inv_mul_eq_div], by simp [inv_mul_eq_div]⟩

/-- The direction between two points is the vector between them, cut to length one. -/
theorem ofAngle_angle {a b : Point ℝ} (h : Scalar.tiny ≤ distance a b) :
    ofAngle (angle a b) = (b - a) / distance a b := by
  let z : ℂ := ⟨b.x - a.x, b.y - a.y⟩
  have hnorm : distance a b = ‖z‖ := distance_eq_norm a b
  have hz : z ≠ 0 := norm_pos_iff.1 (hnorm ▸ Scalar.tiny_pos.trans_le h)
  rw [hnorm, ext_iff]
  exact ⟨Complex.cos_arg hz, Complex.sin_arg z⟩

/-! ### Dot products -/

section

variable (u v w : Point ℝ) (k : ℝ)

theorem add_dot : dot (u + v) w = dot u w + dot v w := by
  unfold dot
  simp only [add_x, add_y]
  ring

theorem mul_dot : dot (k * v) w = k * dot v w := by
  unfold dot
  simp only [mul_x, mul_y]
  ring

theorem neg_dot : dot (-v) w = -dot v w := by
  unfold dot
  simp only [neg_x, neg_y]
  ring

/-- Across a vector is at right angles to it, even where the vector has no length. -/
theorem dot_unit_perp : dot (unit v.perp) v = 0 := by
  unfold unit
  split
  · exact zero_dot v
  · have hperp : dot v.perp v = 0 := by
      unfold dot perp
      ring
    rw [div_eq_inv_mul, mul_dot, hperp, mul_zero]

end

/-! ### Lengths -/

section

variable (u v : Point ℝ) (k : ℝ)

theorem length_eq_norm : v.length = ‖(⟨v.x, v.y⟩ : ℂ)‖ := by
  rw [Complex.norm_eq_sqrt_sq_add_sq]
  rfl

theorem length_nonneg : 0 ≤ v.length := Real.sqrt_nonneg _

theorem length_mul_self : v.length * v.length = dot v v := by
  have hsq : (0 : ℝ) ≤ v.x ^ 2 + v.y ^ 2 := by positivity
  show √(v.x ^ 2 + v.y ^ 2) * √(v.x ^ 2 + v.y ^ 2) = v.x * v.x + v.y * v.y
  rw [Real.mul_self_sqrt hsq]
  ring

@[simp] theorem length_zero : (0 : Point ℝ).length = 0 := by
  show √((0 : Point ℝ).x ^ 2 + (0 : Point ℝ).y ^ 2) = 0
  simp

@[simp] theorem length_neg : (-v).length = v.length := by
  show √((-v).x ^ 2 + (-v).y ^ 2) = √(v.x ^ 2 + v.y ^ 2)
  simp

theorem length_mul : (k * v).length = |k| * v.length := by
  have hsq : (k * v.x) ^ 2 + (k * v.y) ^ 2 = k ^ 2 * (v.x ^ 2 + v.y ^ 2) := by ring
  show √((k * v.x) ^ 2 + (k * v.y) ^ 2) = |k| * √(v.x ^ 2 + v.y ^ 2)
  rw [hsq, Real.sqrt_mul (sq_nonneg k), Real.sqrt_sq_eq_abs]

theorem length_add_le : (u + v).length ≤ u.length + v.length := by
  simp only [length_eq_norm]
  exact norm_add_le (⟨u.x, u.y⟩ : ℂ) ⟨v.x, v.y⟩

theorem abs_dot_le : |dot u v| ≤ u.length * v.length := by
  -- what the product of the lengths has over the dot product is the square of a determinant
  have hgap : dot u v ^ 2 ≤ (u.length * v.length) ^ 2 := by
    have hlengths : (u.length * v.length) ^ 2 = dot u u * dot v v := by
      rw [mul_pow, sq, sq, length_mul_self, length_mul_self]
    have hdet : dot u u * dot v v - dot u v ^ 2 = (u.x * v.y - u.y * v.x) ^ 2 := by
      unfold dot
      ring
    rw [hlengths, ← sub_nonneg, hdet]
    exact sq_nonneg _
  exact abs_le_of_sq_le_sq hgap (mul_nonneg u.length_nonneg v.length_nonneg)

theorem length_ofAngle : (ofAngle k).length = 1 := by
  show √(Real.cos k ^ 2 + Real.sin k ^ 2) = 1
  rw [Real.cos_sq_add_sin_sq, Real.sqrt_one]

theorem length_unit_le : (unit v).length ≤ 1 := by
  unfold unit
  split
  · rw [zero_def, length_zero]
    exact zero_le_one
  · next htiny =>
    have hpos : 0 < v.length := Scalar.tiny_pos.trans_le (not_lt.1 htiny)
    rw [div_eq_inv_mul, length_mul, abs_of_pos (inv_pos.2 hpos), inv_mul_cancel₀ hpos.ne']

/-- The part of a vector along another one, of length at most one, is no longer than the vector. -/
theorem length_dot_mul_le {n : Point ℝ} (hn : n.length ≤ 1) : (dot v n * n).length ≤ v.length := by
  have hlength := v.length_nonneg
  rw [length_mul]
  calc |dot v n| * n.length ≤ v.length * n.length * n.length :=
        mul_le_mul_of_nonneg_right (abs_dot_le v n) n.length_nonneg
    _ ≤ v.length * n.length * 1 :=
        mul_le_mul_of_nonneg_left hn (mul_nonneg hlength n.length_nonneg)
    _ ≤ v.length * 1 * 1 := by gcongr
    _ = v.length := by ring

end

end Linkage.Point
