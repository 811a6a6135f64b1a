import Linkage.Proofs.Gliding

/-!
# As few sub-steps as suffice

Where sub-steps are bounded by a length, a frame is split into the least count of them that keeps
each one within it, and all of them together last as long as the frame. A node that nothing acts on
shows this: it goes on as far as its velocity takes it in that time (`Scene.advanceBy_drift`).
-/

namespace Linkage

open Act Scalar

variable {c : Stepping ℝ} {dt dt' longest longest' : ℝ}

/-- The counts of sub-steps that keep each one of a frame of length `dt` within `longest`. -/
def sufficient (dt longest : ℝ) : Set ℕ := {k | 1 ≤ k ∧ dt / k ≤ longest}

theorem sufficient_eq (hdt : 0 < dt) (hl : 0 < longest) :
    sufficient dt longest = Set.Ici ⌈dt / longest⌉₊ := by
  ext k
  rw [Set.mem_Ici, Nat.ceil_le, div_le_iff₀ hl]
  constructor
  · rintro ⟨hk, hle⟩
    have hpos : (0 : ℝ) < k := Nat.cast_pos.2 hk
    rwa [div_le_iff₀ hpos, mul_comm] at hle
  · intro hle
    have hpos : (0 : ℝ) < k := pos_of_mul_pos_left (hdt.trans_le hle) hl.le
    refine ⟨Nat.cast_pos.1 hpos, ?_⟩
    rwa [div_le_iff₀ hpos, mul_comm]

/-- What suffices for a longer frame and a smaller bound suffices. -/
theorem sufficient_subset (hdt : dt ≤ dt') (hl : longest' ≤ longest) :
    sufficient dt' longest' ⊆ sufficient dt longest := by
  rintro k ⟨hk, hle⟩
  refine ⟨hk, ?_⟩
  calc dt / k ≤ dt' / k := by gcongr
    _ ≤ longest' := hle
    _ ≤ longest := hl

theorem leastCount_eq (hdt : 0 < dt) (hl : 0 < longest) :
    leastCount dt longest = .ok (⌈dt / longest⌉₊ : ℤ) := by
  have hdivide : divide dt longest = .ok (dt / longest) := divide_eq_ok_iff.2 ⟨hl.ne', rfl⟩
  have hone : 1 ≤ ⌈dt / longest⌉ := Int.one_le_ceil_iff.2 (div_pos hdt hl)
  rw [Int.natCast_ceil_eq_ceil (div_pos hdt hl).le]
  show (divide dt longest).bind _ = _
  rw [hdivide]
  show Except.ok (max 1 ⌈dt / longest⌉) = _
  rw [max_eq_right hone]

/-- Sub-steps are to be no longer than `longest`, however many there have to be. -/
structure Stepping.BoundedBy (c : Stepping ℝ) (longest : ℝ) : Prop where
  policy : c.policy = .maxDuration
  maxSubstep : c.maxSubstep = some longest
  pos : 0 < longest

theorem Stepping.BoundedBy.exists_stepsFor (hc : c.BoundedBy longest) (hdt : 0 < dt) :
    ∃ n : ℕ, c.stepsFor dt = .ok (.number (.whole n)) ∧ IsLeast (sufficient dt longest) n := by
  refine ⟨⌈dt / longest⌉₊, ?_, ?_⟩
  · rw [stepsFor, hc.policy, hc.maxSubstep]
    show (leastCount dt longest).bind _ = _
    rw [leastCount_eq hdt hc.pos]
    rfl
  · rw [sufficient_eq hdt hc.pos]
    exact isLeast_Ici

namespace Scene

variable {w : Scene ℝ} {k : Key} {i : Id} {p v : Point ℝ} {h : ℝ} {j : ℕ}

/-- One sub-step after another. -/
theorem advanceBy_substep (hok : (advanceBy dt (j + 1) w).outcome = .ok ())
    (hh : w.graph.config.stepping.lengthFor dt = .ok h) :
    let t := (advanceBy dt j w).state
    (substep w.graph.config.stepping h t).outcome = .ok () ∧
      (substep w.graph.config.stepping h t).state = (advanceBy dt (j + 1) w).state := by
  intro t
  have hsucc : advanceBy dt (j + 1) w = (do
      advanceBy dt j
      substep w.graph.config.stepping h : Act ℝ (Scene ℝ) Unit) w := by
    rw [advanceBy_eq hh, bind_congr_left (advanceBy_eq hh j)]
    simp only [times_add _ j 1, times_one, bind_assoc]
  rw [hsucc] at hok ⊢
  obtain ⟨_, -, hlast, e⟩ := exists_of_bind_ok hok
  exact ⟨hlast, e.symm⟩

/-- Without springs and friction a node keeps its velocity. -/
theorem moved_drift (i : Id) (p v : Point ℝ) (springOf : Id → Option (Spring ℝ)) (h : ℝ) :
    (Node.mk i p v []).moved springOf 0 h = ⟨i, p + h * v, v, []⟩ := by
  have hforce : (Node.mk i p v []).netForce springOf 0 = Point.zero := by
    show -0 * v = Point.zero
    rw [neg_zero, Point.zero_smul]
  unfold Node.moved Node.step
  rw [hforce]
  simp

theorem advanceBy_drift (hh : w.graph.config.stepping.lengthFor dt = .ok h)
    (hf : w.graph.config.stepping.friction = some 0) (hn : w.node? k = some ⟨i, p, v, []⟩)
    (hok : (advanceBy dt j w).outcome = .ok ()) :
    (advanceBy dt j w).state.node? k = some ⟨i, p + (j * h : ℝ) * v, v, []⟩ := by
  induction j with
  | zero =>
    rw [node?_congr (advanceBy_zero_graph w dt), hn, Nat.cast_zero, zero_mul, Point.zero_smul,
      Point.add_zero]
  | succ j ih =>
    obtain ⟨hto, hmove⟩ := advanceBy_succ_spec hok hh hf
    obtain ⟨hby, hgraph⟩ := advanceTo_spec hto
    have hlast : p + (j * h : ℝ) * v + h * v = p + ((j + 1 : ℕ) * h : ℝ) * v := by
      rw [Point.ext_iff]
      simp only [Point.add_x, Point.mul_x, Point.add_y, Point.mul_y, Nat.cast_succ]
      constructor <;> ring
    rw [hmove, node?_move, node?_congr hgraph, ih hby, Option.map_some, moved_drift, hlast]

end Scene

namespace Bench

/-- After every run, a frame of positive length whose sub-steps are bounded is split into the least
count that suffices. No longer frame and no smaller bound is split into fewer. With a cap, a
friction and springs whose constants are numbers the frame succeeds. A frame that succeeds consists
of so many sub-steps of one length, which together last as long as it does: if there is no
friction, a node without springs goes on for just that time. -/
theorem split_after_run (c : Config ℝ) (springs : Arena (Spring ℝ))
    (quantities : Arena (Quantity ℝ)) (ops : List (Op ℝ)) (longest dt : ℝ)
    (hc : c.stepping.BoundedBy longest) (hdt : 0 < dt) :
    let w := (after ops (empty c springs quantities)).toScene
    let t := (Scene.advance dt w).state
    ∃ n : ℕ, c.stepping.stepsFor dt = .ok (.number (.whole n)) ∧
      IsLeast (sufficient dt longest) n ∧
      (∀ c' dt' longest', Stepping.BoundedBy c' longest' → dt ≤ dt' → longest' ≤ longest →
        ∃ n' : ℕ, c'.stepsFor dt' = .ok (.number (.whole n')) ∧ n ≤ n') ∧
      ((∃ cap, c.stepping.lengthCap = some cap) →
        (∃ friction, c.stepping.friction = some friction) → w.Numeric →
        (Scene.advance dt w).outcome = .ok ()) ∧
      ((Scene.advance dt w).outcome = .ok () →
        (∃ h, n * h = dt ∧ ∃ u : ℕ → Scene ℝ, (u 0).graph = w.graph ∧
          (∀ j < n, (Scene.substep c.stepping h (u j)).outcome = .ok () ∧
            (Scene.substep c.stepping h (u j)).state = u (j + 1)) ∧
          Scene.Struck (u n) t) ∧
        (c.stepping.friction = some 0 → ∀ k i p v, w.node? k = some ⟨i, p, v, []⟩ →
          t.body? k = some ⟨i, p + dt * v, v⟩)) := by
  intro w t
  have hw : w.Sound := (sound_after c springs quantities ops).scene
  have hconfig : w.graph.config = c := config_after c springs quantities ops
  obtain ⟨n, hsteps, hleast⟩ := hc.exists_stepsFor hdt
  have hn : 0 < n := hleast.1.1
  have htimes : (Number.whole n : Number ℝ).times = .ok n := rfl
  refine ⟨n, hsteps, hleast, ?monotone, fun hcap hfriction hnum => ?succeeds, fun hok => ?frame⟩
  case monotone =>
    intro c' dt' longest' hc' hle hle'
    obtain ⟨n', hsteps', hleast'⟩ := hc'.exists_stepsFor (hdt.trans_le hle)
    exact ⟨n', hsteps', hleast'.mono hleast (sufficient_subset hle hle')⟩
  case succeeds =>
    have hsplits := Stepping.splits_of_pos hdt hcap hfriction hsteps htimes hn
    rw [← hconfig] at hsplits
    exact Scene.advance_ok hw hnum hsplits
  case frame =>
    have htotal : n * (dt / n) = dt := mul_div_cancel₀ dt (Nat.cast_ne_zero.2 hn.ne')
    rw [← hconfig] at hsteps
    have hh : w.graph.config.stepping.lengthFor dt = .ok (dt / n) :=
      Stepping.lengthFor_of_pos hsteps htimes hn
    obtain ⟨hby, hstruck⟩ := Scene.advanceBy_of_advance hw (not_le_zero hdt) hsteps htimes hok
    refine ⟨⟨dt / n, htotal, ?substeps⟩, ?drift⟩
    case substeps =>
      refine ⟨fun j => (Scene.advanceBy dt j w).state, Scene.advanceBy_zero_graph w dt, ?_,
        hstruck⟩
      intro j hj
      have hlast := Scene.advanceBy_substep (hby (j + 1) hj) hh
      rwa [hconfig] at hlast
    case drift =>
      intro hzero k i p v hnode
      rw [← hconfig] at hzero
      have hdrift := Scene.advanceBy_drift hh hzero hnode (hby n le_rfl)
      rw [hstruck.body?, Scene.body?, hdrift, htotal]
      rfl

/-- Sub-steps of a length at most, and no friction. -/
noncomputable def unhurried (longest : ℝ) : Config ℝ :=
  { (default : Config ℝ) with
    stepping := { Stepping.standard with
      policy := .maxDuration, maxSubstep := some longest, friction := some 0 } }

/-- A frame that is just as long as three sub-steps is split into three. -/
theorem split_evenly :
    let node : Op ℝ := .sketch (.scene (.addNode (.ofPoint ⟨1, 2⟩)))
    let w := (after [node] (empty (unhurried 2) {} {})).toScene
    (unhurried 2).stepping.BoundedBy 2 ∧
      (unhurried 2).stepping.stepsFor 6 = .ok (.number (.whole 3)) ∧
      (Scene.advance 6 w).outcome = .ok () ∧
      (Scene.advance 6 w).state.body? (some 0) = some ⟨0, ⟨1, 2⟩, Point.zero⟩ := by
  intro node w
  have hbounded : (unhurried 2).stepping.BoundedBy 2 := ⟨rfl, rfl, two_pos⟩
  obtain ⟨n, hsteps, ⟨hmem, hleast⟩, -, hsucceeds, hframe⟩ :=
    split_after_run (unhurried 2) {} {} [node] 2 6 hbounded (by norm_num)
  have hok : (Scene.advance 6 w).outcome = .ok () :=
    hsucceeds ⟨_, rfl⟩ ⟨_, rfl⟩ fun s hs => by cases hs
  obtain ⟨-, hdrift⟩ := hframe hok
  have hle : n ≤ 3 := hleast ⟨by norm_num, by norm_num⟩
  have hge : 3 ≤ n := by
    have hpos : (0 : ℝ) < n := Nat.cast_pos.2 hmem.1
    have hlong : (6 : ℝ) ≤ 2 * n := (div_le_iff₀ hpos).1 hmem.2
    have hthree : ((3 : ℕ) : ℝ) ≤ n := by
      push_cast
      linarith
    exact Nat.cast_le.1 hthree
  obtain rfl : n = 3 := le_antisymm hle hge
  have hbody := hdrift rfl (some 0) 0 ⟨1, 2⟩ Point.zero rfl
  rw [Point.smul_zero, Point.add_zero] at hbody
  exact ⟨hbounded, hsteps, hok, hbody⟩

end Bench

end Linkage
