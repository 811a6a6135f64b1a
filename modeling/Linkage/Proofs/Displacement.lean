import Linkage.Proofs.Slack

/-!
# Displacement by the nearest bound

A spring is displaced by how far its length is beyond a bound, up to the cap. Bounds that are the
values of other quantities may be the wrong way round, and then a length between them is beyond
both. The lower bound goes first, so that the displacement is measured from the nearest bound that
the length is beyond, unless it is beyond both and nearer to the upper one (`Spring.Crossed`).
-/

namespace Linkage

open Scalar Set

namespace Scalar

/-- Nothing is moved into the inside of an interval. -/
theorem clamp_eq_iff {lo hi x y : ℝ} (hy : y ∈ Ioo lo hi) : clamp lo hi x = y ↔ x = y := by
  have hle : lo ≤ hi := (hy.1.trans hy.2).le
  rcases le_total x lo with hlo | hlo
  · rw [clamp_of_le hle hlo]
    exact iff_of_false hy.1.ne (hlo.trans_lt hy.1).ne
  rcases le_total x hi with hhi | hhi
  · rw [clamp_of_mem ⟨hlo, hhi⟩]
  · rw [clamp_of_ge hle hhi]
    exact iff_of_false hy.2.ne' (hy.2.trans_le hhi).ne'

end Scalar

namespace Spring

variable {s : Spring ℝ} {l m lo hi : ℝ}

/-- The length `l` is beyond the bound `m`. -/
def Violates (s : Spring ℝ) (l m : ℝ) : Prop :=
  m ∈ s.lower.map Number.val ∧ l < m ∨ m ∈ s.upper.map Number.val ∧ m < l

/-- The length `l` is beyond the bound `m`, and beyond none that is nearer. -/
structure NearestViolated (s : Spring ℝ) (l m : ℝ) : Prop where
  violates : s.Violates l m
  le : ∀ n, s.Violates l n → |l - m| ≤ |l - n|

/-- The length is beyond both bounds and nearer to the upper one. -/
def Crossed (s : Spring ℝ) (l : ℝ) : Prop :=
  ∃ lo ∈ s.lower.map Number.val, ∃ hi ∈ s.upper.map Number.val, l < lo ∧ hi < l ∧ l - hi < lo - l

theorem between_iff_not_violates :
    Between (s.lower.map Number.val) (s.upper.map Number.val) l ↔ ∀ m, ¬ s.Violates l m := by
  unfold Between Violates
  constructor
  · rintro ⟨hlo, hhi⟩ m (⟨hm, hlt⟩ | ⟨hm, hlt⟩)
    · exact hlt.not_ge (hlo m hm)
    · exact hlt.not_ge (hhi m hm)
  · intro h
    exact ⟨fun m hm => not_lt.1 fun hlt => h m (.inl ⟨hm, hlt⟩),
      fun m hm => not_lt.1 fun hlt => h m (.inr ⟨hm, hlt⟩)⟩

/-! ### The lower bound goes first -/

theorem displacementAt_of_lt (hlo : lo ∈ s.lower.map Number.val) (hlt : l < lo) :
    s.displacementAt l = l - lo := by
  obtain ⟨n, hn, rfl⟩ := Option.mem_map.1 hlo
  have hlower : s.lower = some n := hn
  rw [displacementAt, hlower]
  exact if_pos hlt

theorem displacementAt_of_gt (hhi : hi ∈ s.upper.map Number.val) (hlt : hi < l)
    (hlo : ∀ lo ∈ s.lower.map Number.val, lo ≤ l) : s.displacementAt l = l - hi := by
  obtain ⟨n, hn, rfl⟩ := Option.mem_map.1 hhi
  have hupper : s.upper = some n := hn
  have hexcess : s.excess l = l - n.val := by
    rw [excess, hupper]
    exact if_pos hlt
  rw [displacementAt, ← hexcess]
  split
  · next m hm => exact if_neg (hlo _ (Option.mem_map_of_mem _ hm)).not_gt
  · rfl

/-- Of two bounds that a length is beyond, the lower one is the nearest unless they are crossed. -/
theorem nearestViolated_lower (hlo : lo ∈ s.lower.map Number.val) (hlt : l < lo) :
    s.NearestViolated l lo ↔ ¬ s.Crossed l := by
  have habs : |l - lo| = lo - l := by
    rw [abs_of_neg (sub_neg.2 hlt), neg_sub]
  constructor
  · rintro ⟨-, hle⟩ ⟨lo', hlo', hi, hhi, -, hgt, hnear⟩
    cases Option.mem_unique hlo hlo'
    have := hle hi (.inr ⟨hhi, hgt⟩)
    rw [habs, abs_of_pos (sub_pos.2 hgt)] at this
    exact this.not_gt hnear
  · intro hcrossed
    refine ⟨.inl ⟨hlo, hlt⟩, ?_⟩
    rintro m (⟨hm, -⟩ | ⟨hm, hgt⟩)
    · rw [Option.mem_unique hlo hm]
    · rw [habs, abs_of_pos (sub_pos.2 hgt)]
      exact not_lt.1 fun hnear => hcrossed ⟨lo, hlo, m, hm, hlt, hgt, hnear⟩

theorem nearestViolated_upper (hhi : hi ∈ s.upper.map Number.val) (hlt : hi < l)
    (hlo : ∀ lo ∈ s.lower.map Number.val, lo ≤ l) : s.NearestViolated l hi := by
  refine ⟨.inr ⟨hhi, hlt⟩, ?_⟩
  rintro m (⟨hm, hgt⟩ | ⟨hm, -⟩)
  · exact absurd hgt (hlo m hm).not_gt
  · rw [Option.mem_unique hhi hm]

theorem exists_nearestViolated (hcrossed : ¬ s.Crossed l) (hm : s.Violates l m) :
    ∃ n, s.NearestViolated l n ∧ s.displacementAt l = l - n := by
  by_cases hlow : ∀ lo ∈ s.lower.map Number.val, lo ≤ l
  · rcases hm with ⟨hm, hlt⟩ | ⟨hm, hlt⟩
    · exact absurd hlt (hlow m hm).not_gt
    · exact ⟨m, nearestViolated_upper hm hlt hlow, displacementAt_of_gt hm hlt hlow⟩
  · push Not at hlow
    obtain ⟨lo, hlo, hlt⟩ := hlow
    exact ⟨lo, (nearestViolated_lower hlo hlt).2 hcrossed, displacementAt_of_lt hlo hlt⟩

/-! ### What is stored -/

theorem cappedAt_eq (s : Spring ℝ) (l cap : ℝ) :
    s.cappedAt l cap = min (max (s.displacementAt l) (-cap)) cap := clamp_eq ..

theorem cappedAt_eq_zero_iff {cap : ℝ} (hcap : 0 < cap) :
    s.cappedAt l cap = 0 ↔ ∀ m, ¬ s.Violates l m := by
  rw [cappedAt, clamp_eq_iff ⟨neg_lt_zero.2 hcap, hcap⟩, displacementAt_eq_zero_iff,
    between_iff_not_violates]

theorem exists_displaced (s : Spring ℝ) (a b : Point ℝ) (cap : ℝ) {h : ℝ} (hh : h ≠ 0) :
    ∃ s', s.displaced a b h cap = .ok s' ∧
      s'.strain.displacement = (s.relaxed a b cap).strain.displacement :=
  ⟨_, displaced_eq_ok_iff.2 ⟨_, divide_eq_ok_iff.2 ⟨hh, rfl⟩, rfl⟩, rfl⟩

theorem exists_strained (hs : s.constants.isSome) (a b : Point ℝ) (cap : ℝ) {h : ℝ} (hh : h ≠ 0) :
    ∃ s', s.strained a b h cap = .ok s' ∧
      s'.strain.displacement = (s.relaxed a b cap).strain.displacement := by
  obtain ⟨u, hu, hd⟩ := exists_displaced s a b cap hh
  have hconstants : u.constants = s.constants := by
    obtain ⟨_, -, rfl⟩ := displaced_eq_ok_iff.1 hu
    rfl
  exact ⟨_, bind_eq_ok_iff.2 ⟨u, hu, loaded_eq_ok_iff.2 ⟨.inr (hconstants ▸ hs), rfl⟩⟩, hd⟩

/-- A frame and each of its sub-steps store the same displacement for endpoints in the same places,
also where there are no numbers to compute a force from. It is zero exactly if the length is beyond
no bound, and otherwise it is how far the length is beyond the nearest bound that it is beyond, cut
off at the cap. Only if the length is beyond both bounds and nearer to the upper one, the
displacement is measured from the lower one all the same. -/
theorem displaced_from_nearest (s : Spring ℝ) (a b : Point ℝ) (cap : ℝ) (hcap : 0 < cap) :
    let l := Point.distance a b
    let d := (s.relaxed a b cap).strain.displacement
    (∀ h, h ≠ 0 → (∃ s', s.displaced a b h cap = .ok s' ∧ s'.strain.displacement = d) ∧
        (s.constants.isSome →
          ∃ s', s.strained a b h cap = .ok s' ∧ s'.strain.displacement = d)) ∧
      (d = 0 ↔ ∀ m, ¬ s.Violates l m) ∧
      (¬ s.Crossed l → ∀ m, s.Violates l m →
        ∃ n, s.NearestViolated l n ∧ d = min (max (l - n) (-cap)) cap) ∧
      (s.Crossed l → ∃ lo ∈ s.lower.map Number.val,
        ¬ s.NearestViolated l lo ∧ d = min (max (l - lo) (-cap)) cap) := by
  intro l d
  have hd : d = s.cappedAt l cap := rfl
  refine ⟨fun h hh => ⟨exists_displaced s a b cap hh, fun hs => exists_strained hs a b cap hh⟩, ?_,
    fun hcrossed m hm => ?_, fun hcrossed => ?_⟩
  · rw [hd, cappedAt_eq_zero_iff hcap]
  · obtain ⟨n, hn, hdisplacement⟩ := exists_nearestViolated hcrossed hm
    exact ⟨n, hn, by rw [hd, cappedAt_eq, hdisplacement]⟩
  · have ⟨lo, hlo, _, _, hlt, _⟩ := hcrossed
    refine ⟨lo, hlo, fun hn => (nearestViolated_lower hlo hlt).1 hn hcrossed, ?_⟩
    rw [hd, cappedAt_eq, displacementAt_of_lt hlo hlt]

/-- A spring with two bounds, which may be the wrong way round. -/
noncomputable def ranged (lo hi : ℝ) : Spring ℝ :=
  { (default : Spring ℝ) with
    constants := some (Constants.standard .distance), lower := some (.real lo),
    upper := some (.real hi) }

theorem violates_ranged : (ranged lo hi).Violates l m ↔ m = lo ∧ l < m ∨ m = hi ∧ m < l := by
  simp [Violates, ranged, Number.val, eq_comm]

theorem crossed_ranged : (ranged lo hi).Crossed l ↔ l < lo ∧ hi < l ∧ l - hi < lo - l := by
  simp [Crossed, ranged, Number.val]

/-- The length `8` is beyond both bounds, `10` and `4`, and nearer to the lower one. -/
theorem displaced_below :
    (0 : ℝ) < 10 ∧ (ranged 10 4).Violates 8 4 ∧
      ((ranged 10 4).relaxed ⟨0, 0⟩ ⟨8, 0⟩ 10).strain.displacement = -2 := by
  have hlength : Point.distance (⟨0, 0⟩ : Point ℝ) ⟨8, 0⟩ = 8 := by
    rw [Point.distance_axis (by norm_num), sub_zero]
  have hviolates : (ranged 10 4).Violates 8 4 := violates_ranged.2 (.inr ⟨rfl, by norm_num⟩)
  have hcrossed : ¬ (ranged 10 4).Crossed 8 := by
    rw [crossed_ranged]
    norm_num
  obtain ⟨-, -, hnear, -⟩ := displaced_from_nearest (ranged 10 4) ⟨0, 0⟩ ⟨8, 0⟩ 10 (by norm_num)
  rw [hlength] at hnear
  obtain ⟨n, hn, hd⟩ := hnear hcrossed 4 hviolates
  have hten := hn.le 10 (violates_ranged.2 (.inl ⟨rfl, by norm_num⟩))
  refine ⟨by norm_num, hviolates, ?_⟩
  rcases violates_ranged.1 hn.violates with ⟨rfl, -⟩ | ⟨rfl, -⟩
  · rw [hd]
    norm_num
  · norm_num [abs_of_pos, abs_of_neg] at hten

/-- The length `1` is beyond both bounds, `10` and `0`, and nearer to the upper one, by `1`. It is
measured from the lower one. -/
theorem displaced_crossed :
    let s := ranged 10 0
    let a : Point ℝ := ⟨0, 0⟩
    let b : Point ℝ := ⟨1, 0⟩
    s.Violates (Point.distance a b) 10 ∧ (∀ n, s.NearestViolated (Point.distance a b) n ↔ n = 0) ∧
      min (max (Point.distance a b - 0) (-10)) 10 = 1 ∧
      (s.relaxed a b 10).strain.displacement = -9 ∧
      ∃ s', s.strained a b 1 10 = .ok s' ∧ s'.strain.displacement = -9 := by
  intro s a b
  have hlength : Point.distance a b = 1 := by
    rw [Point.distance_axis (by norm_num), sub_zero]
  have hten : s.Violates 1 10 := violates_ranged.2 (.inl ⟨rfl, by norm_num⟩)
  have hzero : s.Violates 1 0 := violates_ranged.2 (.inr ⟨rfl, by norm_num⟩)
  have hlower : (10 : ℝ) ∈ s.lower.map Number.val := rfl
  have hd : (s.relaxed a b 10).strain.displacement = -9 := by
    show s.cappedAt (Point.distance a b) 10 = -9
    rw [hlength, cappedAt_eq, displacementAt_of_lt hlower (by norm_num)]
    norm_num
  obtain ⟨s', hs', hstored⟩ := exists_strained (s := s) rfl a b 10 one_ne_zero
  rw [hlength]
  refine ⟨hten, fun n => ?_, by norm_num, hd, s', hs', hstored.trans hd⟩
  constructor
  · intro hn
    rcases violates_ranged.1 hn.violates with ⟨rfl, -⟩ | ⟨rfl, -⟩
    · have := hn.le 0 hzero
      norm_num at this
    · rfl
  · rintro rfl
    refine ⟨hzero, fun n hn => ?_⟩
    rcases violates_ranged.1 hn with ⟨rfl, -⟩ | ⟨rfl, -⟩
    · norm_num
    · rfl

end Spring
end Linkage
