import Linkage.Proofs.Real
import Linkage.Rail

/-!
# Captives and their seats

A captive has reached its seat exactly if it is on the rail (`distance_seat_eq_zero_iff`): on the
line through two points, or between the two where the rail ends there.
-/

namespace Linkage

open Scalar Set

variable {p a b : Point ℝ} {k : ℝ} {ends : Bool}

namespace Point

theorem ext_iff {p q : Point ℝ} : p = q ↔ p.x = q.x ∧ p.y = q.y := by
  cases p
  cases q
  simp

theorem dot_sub_self : dot (b - a) (b - a) = distance a b ^ 2 := by
  rw [distance_eq, Real.sq_sqrt (by positivity)]
  show (b.x - a.x) * (b.x - a.x) + (b.y - a.y) * (b.y - a.y) = _
  ring

theorem along_eq (h : tiny ≤ distance a b) (p : Point ℝ) :
    along p a b = dot (p - a) (b - a) / distance a b :=
  if_neg h.not_gt

/-- The share `k` of the way from `a` to `b` is that share of the distance. -/
theorem along_share (h : tiny ≤ distance a b) (k : ℝ) :
    along (a + k * (b - a)) a b = k * distance a b := by
  have hpos : 0 < distance a b := tiny_pos.trans_le h
  have hdot : dot (a + k * (b - a) - a) (b - a) = k * dot (b - a) (b - a) := by
    show (a.x + k * (b.x - a.x) - a.x) * (b.x - a.x) +
      (a.y + k * (b.y - a.y) - a.y) * (b.y - a.y) =
      k * ((b.x - a.x) * (b.x - a.x) + (b.y - a.y) * (b.y - a.y))
    ring
  rw [along_eq h, hdot, dot_sub_self]
  field_simp

/-- A projection is the share of the way that it is along, cut off at the ends of a segment. -/
theorem project_eq (h : tiny ≤ distance a b) (p : Point ℝ) (clamped : Bool) :
    project p a b clamped =
      a + ((if clamped then clamp 0.0 (distance a b) (along p a b) else along p a b) /
        distance a b) * (b - a) := by
  have hpos : 0 < distance a b := tiny_pos.trans_le h
  have hproject : project p a b clamped =
      a + (if clamped then clamp 0.0 (distance a b) (along p a b) else along p a b) *
        ((b - a) / distance a b) := by
    rw [along_eq h]
    exact if_neg h.not_gt
  rw [hproject, ext_iff]
  constructor
  · show a.x + _ * ((b.x - a.x) / distance a b) = a.x + _ / distance a b * (b.x - a.x)
    ring
  · show a.y + _ * ((b.y - a.y) / distance a b) = a.y + _ / distance a b * (b.y - a.y)
    ring

end Point

namespace Rail

open Point

/-- On the rail from `a` to `b`, which goes on at its ends or not. -/
def Holds (p a b : Point ℝ) (ends : Bool) : Prop :=
  ∃ k : ℝ, p = a + k * (b - a) ∧ (ends → k ∈ Icc (0 : ℝ) 1)

theorem seat_fst : (seat p a b ends).1 = project p a b ends := by
  cases ends <;> rfl

theorem seat_holds (h : tiny ≤ distance a b) : Holds (seat p a b ends).1 a b ends := by
  have hpos : 0 < distance a b := tiny_pos.trans_le h
  refine ⟨_, seat_fst.trans (project_eq h p ends), ?_⟩
  rintro rfl
  have hmem := clamp_mem (zero_eq.le.trans hpos.le) (along p a b)
  rw [if_pos rfl]
  constructor
  · exact div_nonneg (zero_eq.ge.trans hmem.1) hpos.le
  · exact div_le_one_of_le₀ hmem.2 hpos.le

/-- What is on the rail stays where it is. -/
theorem seat_of_holds (h : tiny ≤ distance a b) (hp : Holds p a b ends) :
    (seat p a b ends).1 = p := by
  have hpos : 0 < distance a b := tiny_pos.trans_le h
  obtain ⟨k, rfl, hk⟩ := hp
  have hshare : (if ends then clamp 0.0 (distance a b) (k * distance a b) else k * distance a b) =
      k * distance a b := by
    split
    · next he =>
      have hmem := hk he
      refine clamp_of_mem ⟨zero_eq.le.trans (mul_nonneg hmem.1 hpos.le), ?_⟩
      exact mul_le_of_le_one_left hpos.le hmem.2
    · rfl
  rw [seat_fst, project_eq h, along_share h, hshare, mul_div_cancel_right₀ k hpos.ne']

theorem distance_seat_eq_zero_iff (h : tiny ≤ distance a b) :
    distance (seat p a b ends).1 p = 0 ↔ Holds p a b ends := by
  rw [distance_eq_zero_iff]
  refine ⟨fun e => ?_, seat_of_holds h⟩
  have : Holds (seat p a b ends).1 a b ends := seat_holds h
  rwa [e] at this

end Rail

end Linkage
