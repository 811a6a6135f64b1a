import Linkage.Proofs.Real
import Linkage.Triangle

/-!
# Angles by their chords

Between arms that have a length the chord grows strictly with the angle, so a bound on the angle may
be kept by a bound on the chord (`chord_le_iff`, `le_chord_iff`), and each of the two is found again
from the other (`angle_chord_inverse`).
-/

namespace Linkage.Triangle

open Scalar Set

variable {a b c : ℝ}

/-- The square of the side opposite an angle, by the law of cosines. -/
noncomputable def opposite (a b t : ℝ) : ℝ :=
  a ^ 2 + b ^ 2 - 2 * a * b * Real.cos (radians t)

theorem radians_eq (t : ℝ) : radians t = t * (Real.pi / 180) := by
  show t * (Real.pi / 180.0) = _
  norm_num

theorem degrees_eq (t : ℝ) : degrees t = t * (180 / Real.pi) := by
  show t * (180.0 / Real.pi) = _
  norm_num

theorem radians_degrees (t : ℝ) : radians (degrees t) = t := by
  rw [radians_eq, degrees_eq]
  field_simp

theorem radians_mem {t : ℝ} (h : t ∈ Icc (0 : ℝ) 180) : radians t ∈ Icc 0 Real.pi := by
  rw [radians_eq]
  have hpi := Real.pi_pos
  constructor
  · have := h.1
    positivity
  · have := h.2
    calc t * (Real.pi / 180) ≤ 180 * (Real.pi / 180) := by gcongr
      _ = Real.pi := by ring

theorem cos_radians_strictAntiOn :
    StrictAntiOn (fun t : ℝ => Real.cos (radians t)) (Icc 0 180) := by
  intro s hs t ht hst
  have hlt : radians s < radians t := by
    rw [radians_eq, radians_eq]
    have := Real.pi_pos
    gcongr
  exact Real.strictAntiOn_cos (radians_mem hs) (radians_mem ht) hlt

theorem opposite_strictMonoOn (ha : 0 < a) (hb : 0 < b) :
    StrictMonoOn (opposite a b) (Icc 0 180) := by
  intro s hs t ht hst
  have hcos := cos_radians_strictAntiOn hs ht hst
  have hab : 0 < 2 * a * b := by positivity
  unfold opposite
  have := mul_lt_mul_of_pos_left hcos hab
  linarith

/-- Arms without a length are as far from each other at all angles. -/
theorem opposite_monotoneOn (ha : 0 ≤ a) (hb : 0 ≤ b) :
    MonotoneOn (opposite a b) (Icc 0 180) := by
  intro s hs t ht hst
  have hcos := cos_radians_strictAntiOn.antitoneOn hs ht hst
  have hab : 0 ≤ 2 * a * b := by positivity
  unfold opposite
  have := mul_le_mul_of_nonneg_left hcos hab
  linarith

theorem opposite_closed (a b : ℝ) : opposite a b 0 = (a - b) ^ 2 := by
  rw [opposite, radians_eq, zero_mul, Real.cos_zero]
  ring

theorem opposite_straight (a b : ℝ) : opposite a b 180 = (a + b) ^ 2 := by
  have hpi : (180 : ℝ) * (Real.pi / 180) = Real.pi := by ring
  rw [opposite, radians_eq, hpi, Real.cos_pi]
  ring

theorem clamp_angle (t : ℝ) : clamp 0.0 180.0 t = clamp (0 : ℝ) 180 t := by
  have h : (180.0 : ℝ) = 180 := by norm_num
  rw [zero_eq, h]

theorem clamp_angle_mem (t : ℝ) : clamp (0 : ℝ) 180 t ∈ Icc (0 : ℝ) 180 :=
  clamp_mem (by norm_num) t

/-- The chord is the side opposite the angle, once the angle is one. -/
theorem chord_sq (ha : 0 ≤ a) (hb : 0 ≤ b) (t : ℝ) :
    chord a b t ^ 2 = opposite a b (clamp 0 180 t) := by
  have hnonneg : 0 ≤ opposite a b (clamp 0 180 t) := by
    have hcos := Real.cos_le_one (radians (clamp 0 180 t))
    have hab : 0 ≤ 2 * a * b := by positivity
    have hmul := mul_le_mul_of_nonneg_left hcos hab
    unfold opposite
    nlinarith [sq_nonneg (a - b)]
  have heq : a * a + b * b - 2.0 * a * b * Real.cos (radians (clamp 0.0 180.0 t)) =
      opposite a b (clamp 0 180 t) := by
    rw [clamp_angle, opposite, sq, sq]
    norm_num
  have hzero : (0.0 : ℝ) ≤ opposite a b (clamp 0 180 t) := zero_eq.le.trans hnonneg
  have hchord : chord a b t = √(opposite a b (clamp 0 180 t)) := by
    show √(larger (a * a + b * b - 2.0 * a * b * Real.cos (radians (clamp 0.0 180.0 t))) 0.0) = _
    rw [larger_eq, heq, max_eq_left hzero]
  rw [hchord, Real.sq_sqrt hnonneg]

theorem chord_nonneg (a b t : ℝ) : 0 ≤ chord a b t := Real.sqrt_nonneg _

section

variable (ha : 0 ≤ a) (hb : 0 ≤ b)

include ha hb

theorem abs_sub_le_add : |a - b| ≤ a + b := abs_le.2 ⟨by linarith, by linarith⟩

theorem chord_monotone : Monotone (chord a b) := by
  intro s t hst
  have hle := opposite_monotoneOn ha hb (clamp_angle_mem s) (clamp_angle_mem t)
    (clamp_monotone 0 180 hst)
  rw [← chord_sq ha hb, ← chord_sq ha hb] at hle
  exact le_of_sq_le_sq hle (chord_nonneg a b t)

/-- The tips are never nearer than with closed arms, nor further than with straight ones. -/
theorem chord_mem (t : ℝ) : chord a b t ∈ Icc |a - b| (a + b) := by
  have hmem := clamp_angle_mem t
  have hlo := opposite_monotoneOn ha hb (left_mem_Icc.2 (hmem.1.trans hmem.2)) hmem hmem.1
  have hhi := opposite_monotoneOn ha hb hmem (right_mem_Icc.2 (hmem.1.trans hmem.2)) hmem.2
  rw [opposite_closed, ← chord_sq ha hb] at hlo
  rw [opposite_straight, ← chord_sq ha hb] at hhi
  exact ⟨abs_le_of_sq_le_sq hlo (chord_nonneg a b t), le_of_sq_le_sq hhi (add_nonneg ha hb)⟩

end

theorem angle_eq_clamp (ha : tiny ≤ a) (hb : tiny ≤ b) (c : ℝ) : angle a b c =
    degrees (Real.arccos (clamp (-1) 1 ((a ^ 2 + b ^ 2 - c ^ 2) / (2 * a * b)))) := by
  have heq : (a * a + b * b - c * c) / (2.0 * a * b) = (a ^ 2 + b ^ 2 - c ^ 2) / (2 * a * b) := by
    rw [sq, sq, sq]
    norm_num
  have hone : (1.0 : ℝ) = 1 := by norm_num
  unfold angle
  rw [if_neg (by rintro (h | h) <;> linarith)]
  show degrees (Real.arccos (clamp (-1.0) 1.0 ((a * a + b * b - c * c) / (2.0 * a * b)))) = _
  rw [heq, hone]

/-! ### Chords that make a triangle -/

section

variable (ha : tiny ≤ a) (hb : tiny ≤ b) (hlo : |a - b| ≤ c) (hhi : c ≤ a + b)

include ha hb hlo hhi

/-- The cosine of the angle is one, by the triangle inequalities. -/
theorem cosine_mem : (a ^ 2 + b ^ 2 - c ^ 2) / (2 * a * b) ∈ Icc (-1 : ℝ) 1 := by
  have ha' : 0 < a := tiny_pos.trans_le ha
  have hb' : 0 < b := tiny_pos.trans_le hb
  have hab : 0 < 2 * a * b := by positivity
  have hc : 0 ≤ c := (abs_nonneg _).trans hlo
  have hsq : (a - b) ^ 2 ≤ c ^ 2 := sq_le_sq' (by linarith [(abs_le.1 hlo).1]) (abs_le.1 hlo).2
  have hsq' : c ^ 2 ≤ (a + b) ^ 2 := by gcongr
  constructor
  · rw [le_div_iff₀ hab]
    nlinarith
  · rw [div_le_iff₀ hab]
    nlinarith

theorem angle_eq : angle a b c = degrees (Real.arccos ((a ^ 2 + b ^ 2 - c ^ 2) / (2 * a * b))) := by
  rw [angle_eq_clamp ha hb, clamp_of_mem (cosine_mem ha hb hlo hhi)]

theorem angle_mem : angle a b c ∈ Icc (0 : ℝ) 180 := by
  rw [angle_eq ha hb hlo hhi, degrees_eq]
  have hpi := Real.pi_pos
  have hle := Real.arccos_le_pi ((a ^ 2 + b ^ 2 - c ^ 2) / (2 * a * b))
  have hnonneg := Real.arccos_nonneg ((a ^ 2 + b ^ 2 - c ^ 2) / (2 * a * b))
  constructor
  · positivity
  · calc _ ≤ Real.pi * (180 / Real.pi) := by gcongr
      _ = 180 := by field_simp

/-- The law of cosines. -/
theorem opposite_angle : opposite a b (angle a b c) = c ^ 2 := by
  have ha' : 0 < a := tiny_pos.trans_le ha
  have hb' : 0 < b := tiny_pos.trans_le hb
  have hcos := cosine_mem ha hb hlo hhi
  rw [angle_eq ha hb hlo hhi, opposite, radians_degrees, Real.cos_arccos hcos.1 hcos.2]
  field_simp
  ring

/-- The tips are no nearer than a chord exactly if the angle is no less. -/
theorem chord_le_iff (t : ℝ) : chord a b t ≤ c ↔ clamp 0 180 t ≤ angle a b c := by
  have ha' : 0 < a := tiny_pos.trans_le ha
  have hb' : 0 < b := tiny_pos.trans_le hb
  have hc : 0 ≤ c := (abs_nonneg _).trans hlo
  rw [← pow_le_pow_iff_left₀ (chord_nonneg a b t) hc two_ne_zero, chord_sq ha'.le hb'.le,
    ← opposite_angle ha hb hlo hhi]
  exact (opposite_strictMonoOn ha' hb').le_iff_le (clamp_angle_mem t) (angle_mem ha hb hlo hhi)

theorem le_chord_iff (t : ℝ) : c ≤ chord a b t ↔ angle a b c ≤ clamp 0 180 t := by
  have ha' : 0 < a := tiny_pos.trans_le ha
  have hb' : 0 < b := tiny_pos.trans_le hb
  have hc : 0 ≤ c := (abs_nonneg _).trans hlo
  rw [← pow_le_pow_iff_left₀ hc (chord_nonneg a b t) two_ne_zero, chord_sq ha'.le hb'.le,
    ← opposite_angle ha hb hlo hhi]
  exact (opposite_strictMonoOn ha' hb').le_iff_le (angle_mem ha hb hlo hhi) (clamp_angle_mem t)

/-- Such a chord is found again from its angle. -/
theorem chord_angle : chord a b (angle a b c) = c := by
  have hclamp := clamp_of_mem (angle_mem ha hb hlo hhi)
  exact le_antisymm ((chord_le_iff ha hb hlo hhi _).2 hclamp.le)
    ((le_chord_iff ha hb hlo hhi _).2 hclamp.ge)

end

/-! ### Chords of all lengths -/

section

variable (ha : tiny ≤ a) (hb : tiny ≤ b)

include ha hb

/-- An angle is found again from its chord, since that makes a triangle. -/
theorem angle_chord (t : ℝ) : angle a b (chord a b t) = clamp 0 180 t := by
  obtain ⟨hlo, hhi⟩ := chord_mem (tiny_pos.le.trans ha) (tiny_pos.le.trans hb) t
  exact le_antisymm ((le_chord_iff ha hb hlo hhi t).1 le_rfl)
    ((chord_le_iff ha hb hlo hhi t).1 le_rfl)

/-- A chord too short for a triangle closes the arms. -/
theorem angle_of_sq_le (hc : c ^ 2 ≤ (a - b) ^ 2) : angle a b c = 0 := by
  have ha' : 0 < a := tiny_pos.trans_le ha
  have hb' : 0 < b := tiny_pos.trans_le hb
  have hcos : 1 ≤ (a ^ 2 + b ^ 2 - c ^ 2) / (2 * a * b) := by
    rw [le_div_iff₀ (by positivity)]
    linarith [sub_sq a b]
  rw [angle_eq_clamp ha hb, clamp_of_ge (by norm_num) hcos, Real.arccos_one, degrees_eq, zero_mul]

/-- A chord too long for one straightens them. -/
theorem angle_of_le_sq (hc : (a + b) ^ 2 ≤ c ^ 2) : angle a b c = 180 := by
  have ha' : 0 < a := tiny_pos.trans_le ha
  have hb' : 0 < b := tiny_pos.trans_le hb
  have hcos : (a ^ 2 + b ^ 2 - c ^ 2) / (2 * a * b) ≤ -1 := by
    rw [div_le_iff₀ (by positivity)]
    linarith [add_sq a b]
  rw [angle_eq_clamp ha hb, clamp_of_le (by norm_num) hcos, Real.arccos_neg_one, degrees_eq]
  field_simp

/-- A chord that makes no triangle counts as the nearest one that does. -/
theorem angle_clamp (hc : 0 ≤ c) : angle a b (clamp |a - b| (a + b) c) = angle a b c := by
  have hle : |a - b| ≤ a + b := abs_sub_le_add (tiny_pos.le.trans ha) (tiny_pos.le.trans hb)
  rcases le_total c |a - b| with hlo | hlo
  · have hsq : c ^ 2 ≤ (a - b) ^ 2 := (pow_le_pow_left₀ hc hlo 2).trans (sq_abs _).le
    rw [clamp_of_le hle hlo, angle_of_sq_le ha hb (sq_abs _).le, angle_of_sq_le ha hb hsq]
  rcases le_total c (a + b) with hhi | hhi
  · rw [clamp_of_mem ⟨hlo, hhi⟩]
  · have hsq : (a + b) ^ 2 ≤ c ^ 2 := pow_le_pow_left₀ ((abs_nonneg _).trans hle) hhi 2
    rw [clamp_of_ge hle hhi, angle_of_le_sq ha hb le_rfl, angle_of_le_sq ha hb hsq]

end

/-- With exact numbers, between arms that have a length: an angle is found again from its chord,
once it counts as closed or straight where it is beyond that, and a chord from its angle, once it
counts as the nearest chord that makes a triangle. While arms open, with a length or without, their
chord never shrinks, and goes from the difference of the arms to their sum. -/
theorem angle_chord_inverse (a b : ℝ) :
    (tiny ≤ a → tiny ≤ b →
      (∀ t, angle a b (chord a b t) = min (max t 0) 180) ∧
      ∀ c, 0 ≤ c → angle a b c ∈ Icc (0 : ℝ) 180 ∧
        chord a b (angle a b c) = min (max c |a - b|) (a + b)) ∧
    (0 ≤ a → 0 ≤ b → Monotone (chord a b) ∧ ∀ t, chord a b t ∈ Icc |a - b| (a + b)) := by
  refine ⟨fun ha hb => ⟨fun t => ?_, fun c hc => ?_⟩, fun ha hb =>
    ⟨chord_monotone ha hb, chord_mem ha hb⟩⟩
  · rw [angle_chord ha hb, clamp_eq]
  · have hle := abs_sub_le_add (tiny_pos.le.trans ha) (tiny_pos.le.trans hb)
    obtain ⟨hlo, hhi⟩ := clamp_mem hle c
    rw [← angle_clamp ha hb hc, ← clamp_eq]
    exact ⟨angle_mem ha hb hlo hhi, chord_angle ha hb hlo hhi⟩

/-- Arms of `3` and `4` whose tips should be `9` apart, and a single arm. -/
theorem angle_chord_scissors :
    (tiny : ℝ) ≤ 3 ∧ (tiny : ℝ) ≤ 4 ∧ angle (3 : ℝ) 4 (chord 3 4 200) = 180 ∧
      chord (3 : ℝ) 4 (angle 3 4 9) = 7 ∧ Monotone (chord (0 : ℝ) 4) ∧ chord (0 : ℝ) 4 90 = 4 := by
  have hthree : (tiny : ℝ) ≤ 3 := by
    unfold tiny
    norm_num
  have hfour : (tiny : ℝ) ≤ 4 := by
    unfold tiny
    norm_num
  obtain ⟨hangle, hchord⟩ := (angle_chord_inverse 3 4).1 hthree hfour
  obtain ⟨-, hnine⟩ := hchord 9 (by norm_num)
  obtain ⟨hmono, hmem⟩ := (angle_chord_inverse 0 4).2 le_rfl (by norm_num)
  obtain ⟨hlo, hhi⟩ := hmem 90
  refine ⟨hthree, hfour, ?_, ?_, hmono, ?_⟩
  · rw [hangle]
    norm_num
  · rw [hnine]
    norm_num
  · norm_num at hlo hhi
    exact le_antisymm hhi hlo

end Linkage.Triangle
