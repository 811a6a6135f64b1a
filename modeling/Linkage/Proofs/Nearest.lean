import Linkage.Proofs.Plane

/-!
# Seats are nearest

The seat of a captive is the point of the rail that is nearest to it, and the only one. It divides
the captive from the rail: seen from it, no point of the rail is ahead in the direction of the
captive (`Rail.dot_seat_nonpos`), so by the law of cosines all of them are further away. What has
been seated once stays (`Rail.seat_eq_self`).
-/

namespace Linkage

open Scalar Set

namespace Scalar

variable {lo hi x y : ℝ}

/-- Seen from where `t` is moved to, the interval is not on the side of `t`. -/
theorem sub_clamp_mul_nonpos (hx : x ∈ Icc lo hi) (t : ℝ) :
    (t - clamp lo hi t) * (x - clamp lo hi t) ≤ 0 := by
  have hle : lo ≤ hi := hx.1.trans hx.2
  rcases le_total t lo with hlo | hlo
  · rw [clamp_of_le hle hlo]
    exact mul_nonpos_of_nonpos_of_nonneg (sub_nonpos.2 hlo) (sub_nonneg.2 hx.1)
  rcases le_total t hi with hhi | hhi
  · rw [clamp_of_mem ⟨hlo, hhi⟩, sub_self, zero_mul]
  · rw [clamp_of_ge hle hhi]
    exact mul_nonpos_of_nonneg_of_nonpos (sub_nonneg.2 hhi) (sub_nonpos.2 hx.2)

theorem lt_abs_sub_clamp_iff (hle : lo ≤ hi) (hy : 0 < y) (t : ℝ) :
    y < |t - clamp lo hi t| ↔ t < lo - y ∨ hi + y < t := by
  rcases le_total t lo with hlo | hlo
  · rw [clamp_of_le hle hlo, abs_of_nonpos (sub_nonpos.2 hlo)]
    refine ⟨fun h => .inl (by linarith), ?_⟩
    rintro (h | h) <;> linarith
  rcases le_total t hi with hhi | hhi
  · rw [clamp_of_mem ⟨hlo, hhi⟩, sub_self, abs_zero]
    refine iff_of_false hy.not_gt ?_
    rintro (h | h) <;> linarith
  · rw [clamp_of_ge hle hhi, abs_of_nonneg (sub_nonneg.2 hhi)]
    refine ⟨fun h => .inr (by linarith), ?_⟩
    rintro (h | h) <;> linarith

end Scalar

namespace Point

variable {p q r a b : Point ℝ}

theorem dot_mul (v w : Point ℝ) (k : ℝ) : dot v (k * w) = k * dot v w := by
  unfold dot
  simp only [mul_x, mul_y]
  ring

/-- The law of cosines. -/
theorem distance_sq (p q r : Point ℝ) :
    distance p r ^ 2 = distance p q ^ 2 + distance q r ^ 2 - 2 * dot (p - q) (r - q) := by
  rw [← dot_sub_self, ← dot_sub_self, ← dot_sub_self]
  unfold dot
  simp only [sub_x, sub_y]
  ring

/-- The side opposite an angle that is not acute is no shorter than the others. -/
theorem distance_le_of_dot_nonpos (h : dot (p - q) (r - q) ≤ 0) : distance p q ≤ distance p r := by
  refine le_of_sq_le_sq ?_ (distance_nonneg p r)
  linarith [distance_sq p q r, sq_nonneg (distance q r)]

theorem eq_of_distance_le (h : dot (p - q) (r - q) ≤ 0) (hle : distance p r ≤ distance p q) :
    r = q := by
  have hsq : distance p r ^ 2 ≤ distance p q ^ 2 := pow_le_pow_left₀ (distance_nonneg p r) hle 2
  have hzero : distance q r ^ 2 = 0 :=
    le_antisymm (by linarith [distance_sq p q r]) (sq_nonneg _)
  exact ((distance_eq_zero_iff q r).1 ((pow_eq_zero_iff two_ne_zero).1 hzero)).symm

/-- From one share of the way to another. -/
theorem share_sub_share (a b : Point ℝ) (x y : ℝ) :
    (a + x * (b - a)) - (a + y * (b - a)) = (x - y) * (b - a) := by
  rw [ext_iff]
  simp only [sub_x, add_x, mul_x, sub_y, add_y, mul_y]
  constructor <;> ring

end Point

namespace Rail

open Point

variable {p q a b : Point ℝ} {ends : Bool}

/-- How far along the rail the seat is, from its first point. -/
noncomputable def mark (p a b : Point ℝ) (ends : Bool) : ℝ :=
  if ends then clamp 0.0 (distance a b) (along p a b) else along p a b

theorem mark_false : mark p a b false = along p a b := rfl

theorem mark_true : mark p a b true = clamp 0 (distance a b) (along p a b) := by
  show clamp 0.0 (distance a b) (along p a b) = _
  rw [Scalar.zero_eq]

theorem Holds.of_ends (h : Holds p a b ends) : Holds p a b false := by
  obtain ⟨k, rfl, -⟩ := h
  exact ⟨k, rfl, nofun⟩

/-- The one point of the rail that is nearest to `p`. -/
structure Nearest (p q a b : Point ℝ) (ends : Bool) : Prop where
  holds : Holds q a b ends
  le : ∀ r, Holds r a b ends → distance p q ≤ distance p r
  unique : ∀ r, Holds r a b ends → distance p r ≤ distance p q → r = q

section

variable (h : tiny ≤ distance a b)

include h

theorem seat_eq : (seat p a b ends).1 = a + (mark p a b ends / distance a b) * (b - a) :=
  seat_fst.trans (project_eq h p ends)

theorem dot_sub_seat : dot (p - (seat p a b ends).1) (b - a) =
    (along p a b - mark p a b ends) * distance a b := by
  have hpos : 0 < distance a b := tiny_pos.trans_le h
  have hsplit : dot (p - (seat p a b ends).1) (b - a) =
      dot (p - a) (b - a) - mark p a b ends / distance a b * dot (b - a) (b - a) := by
    rw [seat_eq h]
    unfold dot
    simp only [sub_x, add_x, mul_x, sub_y, add_y, mul_y]
    ring
  rw [hsplit, dot_sub_self, along_eq h]
  field_simp

/-- No point of the rail is ahead of the seat in the direction of the captive. -/
theorem dot_seat_nonpos (hq : Holds q a b ends) :
    dot (p - (seat p a b ends).1) (q - (seat p a b ends).1) ≤ 0 := by
  have hpos : 0 < distance a b := tiny_pos.trans_le h
  obtain ⟨k, rfl, hk⟩ := hq
  have hdot : dot (p - (seat p a b ends).1) (a + k * (b - a) - (seat p a b ends).1) =
      (along p a b - mark p a b ends) * (k * distance a b - mark p a b ends) := by
    have hsub : a + k * (b - a) - (seat p a b ends).1 =
        (k - mark p a b ends / distance a b) * (b - a) := by
      rw [seat_eq h, share_sub_share]
    rw [hsub, dot_mul, dot_sub_seat h]
    field_simp
  rw [hdot]
  cases ends with
  | false => rw [mark_false, sub_self, zero_mul]
  | true =>
    have hmem := hk rfl
    rw [mark_true]
    exact sub_clamp_mul_nonpos ⟨mul_nonneg hmem.1 hpos.le, mul_le_of_le_one_left hpos.le hmem.2⟩ _

theorem nearest_seat : Nearest p (seat p a b ends).1 a b ends where
  holds := seat_holds h
  le _ hr := distance_le_of_dot_nonpos (dot_seat_nonpos h hr)
  unique _ hr := eq_of_distance_le (dot_seat_nonpos h hr)

/-- A captive counts as held at an end if it is beyond it by more than a length that counts. -/
theorem seat_snd_iff :
    (seat p a b true).2 = true ↔ along p a b < -tiny ∨ distance a b + tiny < along p a b := by
  have hpos : 0 < distance a b := tiny_pos.trans_le h
  have hdistance : distance (seat p a b true).1 (seat p a b false).1 =
      |along p a b - clamp 0 (distance a b) (along p a b)| := by
    have hsub : (seat p a b false).1 - (seat p a b true).1 =
        ((along p a b - clamp 0 (distance a b) (along p a b)) / distance a b) * (b - a) := by
      rw [seat_eq h, seat_eq h, share_sub_share, ← sub_div, mark_false, mark_true]
    show ((seat p a b false).1 - (seat p a b true).1).length = _
    rw [hsub, length_mul, abs_div, abs_of_pos hpos]
    exact div_mul_cancel₀ _ hpos.ne'
  have hflag : (seat p a b true).2 = true ↔
      tiny < distance (seat p a b true).1 (seat p a b false).1 := decide_eq_true_iff
  rw [hflag, hdistance, lt_abs_sub_clamp_iff hpos.le tiny_pos, zero_sub]

/-- What is on the rail is seated where it is, and never for being held at an end. -/
theorem seat_eq_self (hp : Holds p a b ends) : seat p a b ends = (p, false) := by
  cases ends with
  | false => exact Prod.ext (seat_of_holds h hp) rfl
  | true =>
    have hfree : (seat p a b false).1 = p := seat_of_holds h hp.of_ends
    have hheld : (seat p a b true).1 = p := seat_of_holds h hp
    have hflag : (seat p a b true).2 =
        decide (tiny < distance (seat p a b true).1 (seat p a b false).1) := rfl
    refine Prod.ext hheld ?_
    rw [hflag, hheld, hfree, (distance_eq_zero_iff p p).2 rfl]
    exact decide_eq_false tiny_pos.not_gt

theorem seat_false_eq : (seat p a b false).1 = a + along p a b * unit (b - a) := by
  have hunit : unit (b - a) = (b - a) / distance a b := if_neg h.not_gt
  rw [seat_eq h, mark_false, hunit, ext_iff]
  simp only [add_x, mul_x, div_x, add_y, mul_y, div_y]
  constructor <;> ring

theorem seat_true_eq (hp : along p a b ∈ Icc 0 (distance a b)) :
    (seat p a b true).1 = (seat p a b false).1 := by
  rw [seat_eq h, seat_eq h, mark_true, mark_false, clamp_of_mem hp]

end

/-- With exact numbers, on a rail that has a length. Where the rail goes on at its ends, the seat is
the foot of the captive, and it is never an end. Where it does not, the seat is the same as long as
the foot is between the ends, and it is an end exactly if the foot is beyond that, by a length that
counts. Both are the nearest point of their rail, and what has been seated is seated there again,
also on the rail that goes on. -/
theorem seat_nearest (p a b : Point ℝ) (h : tiny ≤ (b - a).length) :
    let t := along p a b
    let l := (b - a).length
    let free := seat p a b false
    let held := seat p a b true
    (free.1 = a + t * unit (b - a) ∧ dot (p - free.1) (b - a) = 0 ∧
      Nearest p free.1 a b false ∧ free.2 = false) ∧
    (Nearest p held.1 a b true ∧ (t ∈ Icc 0 l → held.1 = free.1) ∧
      (held.2 = true ↔ t < -tiny ∨ l + tiny < t)) ∧
    ∀ ends again : Bool, (again = true → ends = true) →
      seat (seat p a b ends).1 a b again = ((seat p a b ends).1, false) := by
  intro t l free held
  have hab : tiny ≤ distance a b := h
  have hdot : dot (p - free.1) (b - a) = 0 := by
    rw [dot_sub_seat hab, mark_false, sub_self, zero_mul]
  refine ⟨⟨seat_false_eq hab, hdot, nearest_seat hab, rfl⟩,
    ⟨nearest_seat hab, seat_true_eq hab, seat_snd_iff hab⟩, fun ends again hends => ?_⟩
  have hholds : Holds (seat p a b ends).1 a b ends := seat_holds hab
  cases again with
  | false => exact seat_eq_self hab hholds.of_ends
  | true =>
    cases hends rfl
    exact seat_eq_self hab hholds

/-- A captive beside the rail from `(0, 0)` to `(3, 4)`, and beyond its end. -/
theorem seat_beyond :
    let a : Point ℝ := ⟨0, 0⟩
    let b : Point ℝ := ⟨3, 4⟩
    let p : Point ℝ := ⟨10, 5⟩
    tiny ≤ (b - a).length ∧ (seat p a b true).2 = true ∧ (seat p a b false).1 = ⟨6, 8⟩ := by
  intro a b p
  have hlength : (b - a).length = 5 := by
    show √(((3 : ℝ) - 0) ^ 2 + (4 - 0) ^ 2) = 5
    rw [Real.sqrt_eq_iff_mul_self_eq (by norm_num) (by norm_num)]
    norm_num
  have hlong : tiny ≤ (b - a).length := by
    rw [hlength]
    unfold tiny
    norm_num
  have halong : along p a b = 10 := by
    rw [along_eq hlong]
    show dot (p - a) (b - a) / (b - a).length = 10
    rw [hlength]
    show (((10 : ℝ) - 0) * (3 - 0) + (5 - 0) * (4 - 0)) / 5 = 10
    norm_num
  obtain ⟨⟨hfree, -⟩, ⟨-, -, hheld⟩, -⟩ := seat_nearest p a b hlong
  refine ⟨hlong, hheld.2 (.inr ?_), hfree.trans ?_⟩
  · rw [halong, hlength]
    unfold tiny
    norm_num
  · have hunit : unit (b - a) = (b - a) / (b - a).length := if_neg hlong.not_gt
    rw [halong, hunit, hlength]
    show Point.mk ((0 : ℝ) + 10 * ((3 - 0) / 5)) (0 + 10 * ((4 - 0) / 5)) = ⟨6, 8⟩
    norm_num

end Rail

end Linkage
