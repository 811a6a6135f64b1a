import Linkage.Proofs.Scene.Partway
import Linkage.Proofs.Stepping

/-!
# Slack springs

A spring within its bounds is not displaced, but its force also counts how fast the displacement
changes. So with exact numbers it exerts no force while it stays within its bounds
(`Bench.slack_after_run`). In the sub-step in which it comes back within them it is still braked, by
the damping times what it was displaced before per time. The cap on displacements has to be no less
than zero for this (`Spring.cappedAt_of_neg`).
-/

namespace Linkage

open Act Scalar Spring

/-! Points on the first axis. -/

namespace Point

variable {p q : ℝ}

theorem distance_axis (hpq : p ≤ q) : distance (⟨p, 0⟩ : Point ℝ) ⟨q, 0⟩ = q - p := by
  rw [distance_eq]
  simp [Real.sqrt_sq (sub_nonneg.2 hpq)]

theorem direction_axis (hpq : p < q) :
    ofAngle (angle (⟨p, 0⟩ : Point ℝ) ⟨q, 0⟩) = ⟨1, 0⟩ := by
  have harg : angle (⟨p, 0⟩ : Point ℝ) ⟨q, 0⟩ = 0 := by
    show Complex.arg ⟨q - p, 0 - 0⟩ = 0
    rw [sub_zero]
    exact Complex.arg_ofReal_of_nonneg (sub_nonneg.2 hpq.le)
  rw [harg]
  show Point.mk (Real.cos 0) (Real.sin 0) = _
  simp

end Point

namespace Spring

variable {s s' : Spring ℝ} {a b : Point ℝ} {h cap : ℝ}

/-- Under a cap below zero all springs count as displaced, whatever their lengths and bounds. -/
theorem cappedAt_of_neg (hc : cap < 0) (l : ℝ) : s.cappedAt l cap = cap := by
  have hlow : cap ≤ max (s.displacementAt l) (-cap) := by
    have hflip : cap ≤ -cap := by linarith
    exact hflip.trans (le_max_right _ _)
  rw [cappedAt, clamp_eq, min_eq_right hlow]

/-- The force of a slack spring comes from what it was displaced before alone. -/
theorem force_strained (hs : s.displacementAt (Point.distance a b) = 0) (hc : 0 ≤ cap)
    (e : s.strained a b h cap = .ok s') :
    s'.strain.force = if Point.distance a b < tiny then 0
      else s.damping * s.strain.previous / h := by
  obtain ⟨rate, hrate, -, rfl⟩ := strained_eq_ok_iff.1 e
  rw [cappedAt_eq_zero hs hc] at hrate
  obtain ⟨-, rfl⟩ := divide_eq_ok_iff.1 hrate
  simp only [strainFor, cappedAt_eq_zero hs hc]
  split
  · exact zero_eq
  · ring

theorem previous_strained (e : s.strained a b h cap = .ok s') :
    s'.strain.previous = s'.strain.displacement ∧
      s'.strain.displacement = s'.cappedAt (Point.distance a b) cap := by
  obtain ⟨rate, -, -, rfl⟩ := strained_eq_ok_iff.1 e
  simp only [strainFor]
  split <;> exact ⟨rfl, rfl⟩

end Spring

namespace Scene

variable {w t : Scene ℝ} {r : Ref} {dt h : ℝ} {j : ℕ}

/-- The length of the spring is within its bounds. -/
def Within (w : Scene ℝ) (r : Ref) : Prop :=
  ∃ p, w.ends (w.spring r) = .ok p ∧ Between ((w.spring r).lower.map Number.val)
    ((w.spring r).upper.map Number.val) (Point.distance p.1 p.2)

theorem Idle.within_iff (ht : Idle w t) : t.Within r ↔ w.Within r := by
  unfold Within
  rw [ht.ends r, ht.strained.spring r]

namespace Looked

variable {cap : Option ℝ}

/-- A frame begins with no displacement before for a spring that is slack then. -/
theorem previous_of_within (hl : Looked (relaxing cap) w t) (hr : r ∈ w.graph.listed)
    (hc : ∀ l ∈ cap, 0 ≤ l) (ht : t.Within r) : (t.spring r).strain.previous = 0 := by
  obtain ⟨p, hp, hbetween⟩ := ht
  obtain ⟨p', hp', e⟩ := hl.spring r hr
  cases hp.symm.trans hp'
  obtain ⟨l, hcap, hrelaxed⟩ := relaxing_eq_ok_iff.1 e
  rw [← Spring.displacementAt_eq_zero_iff] at hbetween
  rw [← hrelaxed] at hbetween ⊢
  exact Spring.relaxed_previous hbetween (hc l hcap)

theorem previous_eq (hl : Looked (straining h cap) w t) (hr : r ∈ w.graph.listed) :
    (t.spring r).strain.previous = (t.spring r).strain.displacement := by
  obtain ⟨p, -, e⟩ := hl.spring r hr
  obtain ⟨l, -, e⟩ := straining_eq_ok_iff.1 e
  exact (Spring.previous_strained e).1

/-- A slack spring is not displaced, and its force comes from what it was displaced before. -/
theorem of_within (hl : Looked (straining h cap) w t) (hr : r ∈ w.graph.listed)
    (hc : ∀ l ∈ cap, 0 ≤ l) (ht : t.Within r) :
    (t.spring r).strain.displacement = 0 ∧ ∀ p, t.ends (t.spring r) = .ok p →
      (t.spring r).strain.force = if Point.distance p.1 p.2 < tiny then 0
        else (t.spring r).damping * (w.spring r).strain.previous / h := by
  obtain ⟨p, hp, hbetween⟩ := ht
  obtain ⟨p', hp', e⟩ := hl.spring r hr
  cases hp.symm.trans hp'
  obtain ⟨l, hcap, e⟩ := straining_eq_ok_iff.1 e
  have hl0 : 0 ≤ l := hc l hcap
  have hsame := hl.idle.strained.spring r
  have hs : (t.spring r).displacementAt (Point.distance p.1 p.2) = 0 :=
    (Spring.displacementAt_eq_zero_iff _).2 hbetween
  have hs' : (w.spring r).displacementAt (Point.distance p.1 p.2) = 0 := by
    rwa [hsame] at hs
  have hdamping : (t.spring r).damping = (w.spring r).damping := by
    rw [hsame]
    rfl
  refine ⟨?_, fun p' hp' => ?_⟩
  · rw [(Spring.previous_strained e).2, Spring.cappedAt_eq_zero hs hl0]
  · cases hp.symm.trans hp'
    rw [hdamping]
    exact Spring.force_strained hs' hl0 e

end Looked

section

variable (hw : w.Sound) (hr : r ∈ w.graph.listed)
  (hc : ∀ l ∈ w.graph.config.stepping.lengthCap, 0 ≤ l)

include hw hr hc

theorem displacement_of_within (hok : (advanceTo dt j w).outcome = .ok ())
    (ht : (advanceTo dt j w).state.Within r) :
    ((advanceTo dt j w).state.spring r).strain.displacement = 0 := by
  obtain ⟨h, hh⟩ := exists_lengthFor_of_advanceTo hok
  obtain ⟨u, hu, hl⟩ := advanceTo_looked hw hok hh
  exact (hl.of_within (hu.alike.listed ▸ hr) hc ht).1

theorem force_advanceTo_zero (hok : (advanceTo dt 0 w).outcome = .ok ())
    (ht : (advanceTo dt 0 w).state.Within r) :
    ((advanceTo dt 0 w).state.spring r).strain.force = 0 := by
  obtain ⟨h, hh⟩ := exists_lengthFor_of_advanceTo hok
  obtain ⟨v, hv, hl⟩ := advanceTo_zero_spec hw hok hh
  have hrv : r ∈ v.graph.listed := hv.idle.graph ▸ hr
  have hprevious : (v.spring r).strain.previous = 0 :=
    hv.previous_of_within hr hc (hl.idle.within_iff.1 ht)
  obtain ⟨-, hforce⟩ := hl.of_within hrv hc ht
  obtain ⟨p, hp, -⟩ := ht
  rw [hforce p hp, hprevious]
  simp

theorem force_advanceTo_succ (hok : (advanceTo dt (j + 1) w).outcome = .ok ())
    (ht : (advanceTo dt (j + 1) w).state.Within r)
    (hh : w.graph.config.stepping.lengthFor dt = .ok h) {p : Point ℝ × Point ℝ}
    (hp : (advanceTo dt (j + 1) w).state.ends ((advanceTo dt (j + 1) w).state.spring r) = .ok p) :
    ((advanceTo dt (j + 1) w).state.spring r).strain.force =
      if Point.distance p.1 p.2 < tiny then 0
      else ((advanceTo dt (j + 1) w).state.spring r).damping *
        ((advanceTo dt j w).state.spring r).strain.displacement / h := by
  obtain ⟨hok', u, hu, hspring, hl⟩ := advanceTo_succ_spec hw hok hh
  obtain ⟨v, hv, hl'⟩ := advanceTo_looked hw hok' hh
  rw [(hl.of_within (hu.alike.listed ▸ hr) hc ht).2 p hp, hspring,
    hl'.previous_eq (hv.alike.listed ▸ hr)]

end

end Scene

namespace Bench

/-- After every run under a length cap that is not negative, in every sub-step of a frame: a listed
spring that is within its bounds, and was so in the sub-step before if there was one in this frame,
exerts no force on any node. If it has only just come back within its bounds, its force is its
damping times what it was displaced before, by the length of the sub-step. A frame that does not
fail passes through all of its sub-steps. -/
theorem slack_after_run (c : Config ℝ) (hc : ∀ l ∈ c.stepping.lengthCap, 0 ≤ l)
    (springs : Arena (Spring ℝ)) (quantities : Arena (Quantity ℝ)) (ops : List (Op ℝ)) (dt : ℝ) :
    let w := (after ops (empty c springs quantities)).toScene
    let seen (j : ℕ) := (Scene.advanceTo dt j w).state
    (∀ j, (Scene.advanceTo dt j w).outcome = .ok () → ∀ r ∈ w.graph.listed, (seen j).Within r →
      ((∀ i, j = i + 1 → (seen i).Within r) →
        ((seen j).spring r).strain.force = 0 ∧ ∀ k, ((seen j).spring r).forceAt k = Point.zero) ∧
      ∀ i h p, j = i + 1 → c.stepping.lengthFor dt = .ok h →
        (seen j).ends ((seen j).spring r) = .ok p →
        ((seen j).spring r).strain.force = if Point.distance p.1 p.2 < tiny then 0
          else ((seen j).spring r).damping * ((seen i).spring r).strain.displacement / h) ∧
    ∀ steps n, 0 < dt → c.stepping.stepsFor dt = .ok (.number steps) → steps.times = .ok n →
      (Scene.advance dt w).outcome = .ok () →
        ∀ j < n, (Scene.advanceTo dt j w).outcome = .ok () := by
  intro w seen
  have hstart : (empty c springs quantities).toSketch.Sound := Sketch.sound_empty _ _ _
  have hrun := after_onward hstart ops
  have hw : w.Sound := hrun.sound.scene
  have hconfig : w.graph.config = c := hrun.scene.config
  rw [← hconfig] at hc ⊢
  refine ⟨fun j hok r hr ht => ⟨fun hbefore => ?_, fun i h p e hh hp => ?_⟩, ?_⟩
  · have hforce : ((seen j).spring r).strain.force = 0 := by
      cases j with
      | zero => exact Scene.force_advanceTo_zero hw hr hc hok ht
      | succ i =>
        obtain ⟨h, hh⟩ := Scene.exists_lengthFor_of_advanceTo hok
        obtain ⟨hok', -⟩ := Scene.advanceTo_succ_spec hw hok hh
        have hbefore' := Scene.displacement_of_within hw hr hc hok' (hbefore i rfl)
        obtain ⟨p, hp, -⟩ := id ht
        rw [Scene.force_advanceTo_succ hw hr hc hok ht hh hp, hbefore']
        simp
    exact ⟨hforce, Spring.forceAt_eq_zero hforce⟩
  · subst e
    exact Scene.force_advanceTo_succ hw hr hc hok ht hh hp
  · intro steps n hdt hsteps hn hok j hj
    have hdt' : ¬ dt ≤ 0.0 := by
      rw [zero_eq]
      exact hdt.not_ge
    exact Scene.advanceTo_ok_of_advance hdt' hsteps hn hok hj

/-- Nodes at `(0, 0)` and `(x, 0)`, which are to be no further apart than `2`. -/
noncomputable def leashRun (x : ℝ) : List (Op ℝ) :=
  let node (x : ℝ) : Op ℝ := .sketch (.scene (.addNode (.ofPoint ⟨x, 0⟩)))
  [node 0, node x, .sketch (.scene (.tie (some 0) (some 1) none (some (.real 2.0))))]

theorem between_leash {l : ℝ} : Between none (some (2.0 : ℝ)) l ↔ l ≤ 2 := by
  have htwo : (2.0 : ℝ) = 2 := by norm_num
  simp [Between, htwo]

theorem slack_leash :
    let w := (after (leashRun 1) (empty default {} {} : Bench ℝ)).toScene
    let t := (Scene.advanceTo 1 0 w).state
    (∀ l ∈ (Stepping.standard : Stepping ℝ).lengthCap, 0 ≤ l) ∧
      (Scene.advanceTo 1 0 w).outcome = .ok () ∧ 0 ∈ w.graph.listed ∧ t.Within 0 ∧
        (t.spring 0).strain.force = 0 := by
  intro w t
  have hcap : ∀ l ∈ (Stepping.standard : Stepping ℝ).lengthCap, 0 ≤ l := by
    rintro l hl
    cases hl
    norm_num
  have hw : w.Sound := (sound_after default {} {} (leashRun 1)).scene
  have hconfig : w.graph.config.stepping = Stepping.standard := rfl
  have hlisted : w.graph.listed = [0] := rfl
  have hmem : 0 ∈ w.graph.listed := by simp [hlisted]
  obtain ⟨hforce, hpasses⟩ := slack_after_run default hcap {} {} (leashRun 1) 1
  have hnum : w.Numeric :=
    Scene.numeric_of_members_eq (show w.members = [w.spring 0] from rfl) rfl
  have hadvance : (Scene.advance 1 w).outcome = .ok () :=
    Scene.advance_ok hw hnum (hconfig ▸ Stepping.splits_standard)
  have hok := hpasses (.whole 25) 25 one_pos rfl rfl hadvance 0 (by norm_num)
  have hwithin : t.Within 0 := by
    obtain ⟨h, hh⟩ := Scene.exists_lengthFor_of_advanceTo hok
    obtain ⟨v, hv, hl⟩ := Scene.advanceTo_zero_spec hw hok hh
    refine (hv.idle.trans hl.idle).within_iff.2 ⟨(⟨0, 0⟩, ⟨1, 0⟩), rfl, ?_⟩
    have hupper : (w.spring 0).upper = some (.real 2.0) := rfl
    have hlower : (w.spring 0).lower = none := rfl
    have hone : Point.distance (⟨0, 0⟩ : Point ℝ) ⟨1, 0⟩ = 1 := by simp [Point.distance_eq]
    rw [hupper, hlower, hone]
    exact between_leash.2 one_le_two
  have hfirst : ∀ i, 0 = i + 1 → (Scene.advanceTo 1 i w).state.Within 0 := fun i e => by cases e
  exact ⟨hcap, hok, hmem, hwithin, ((hforce 0 hok 0 hmem hwithin).1 hfirst).1⟩

/-- The spring of the leash. -/
noncomputable def leash (x : Strain ℝ) : Spring ℝ :=
  { (default : Spring ℝ) with
    id := some 0, kind := .distance, a := .node 0, b := some 1, constants := some ⟨250.0, 31.6⟩,
    upper := some (.real 2.0), strain := x }

/-- Two sub-steps a frame. -/
noncomputable def halved : Config ℝ :=
  { (default : Config ℝ) with
    stepping := { Stepping.standard with substeps := .number (.whole 2) } }

/-- The leash from `(p, 0)` to `(q, 0)`. -/
noncomputable def leashed (x : Strain ℝ) (p q : ℝ) (u v : Point ℝ) : Motion ℝ :=
  ⟨[leash x], [⟨0, ⟨p, 0⟩, u⟩, ⟨1, ⟨q, 0⟩, v⟩]⟩

variable {x y : Strain ℝ} {p q h : ℝ} {u v : Point ℝ}

theorem leashed_look {f : Spring ℝ → Point ℝ → Point ℝ → Except (Failure ℝ) (Spring ℝ)}
    (hf : f (leash x) ⟨p, 0⟩ ⟨q, 0⟩ = .ok (leash y)) :
    (leashed x p q u v).look f = .ok (leashed y p q u v) :=
  Motion.look_eq_ok_iff.2 ⟨rfl, .cons ⟨(⟨p, 0⟩, ⟨q, 0⟩), rfl, hf⟩ .nil⟩

theorem leash_slack {l : ℝ} (hl : l ≤ 2) : (leash x).cappedAt l 10.0 = 0 := by
  have hs : (leash x).displacementAt l = 0 := by
    rw [displacementAt_eq_zero_iff]
    exact between_leash.2 hl
  exact cappedAt_eq_zero hs (by norm_num)

theorem leash_taut : (leash x).cappedAt 3 10.0 = 1 := by
  have hd : (leash x).displacementAt 3 = 1 := by
    show (if (2.0 : ℝ) < 3 then (3 : ℝ) - 2.0 else 0.0) = 1
    norm_num
  rw [cappedAt, hd]
  exact clamp_of_mem (by norm_num)

theorem leash_strained {d : ℝ} (hpq : p + 1 ≤ q) (hd : (leash x).cappedAt (q - p) 10.0 = d)
    (hh : h ≠ 0) :
    ∃ y : Strain ℝ, y.previous = d ∧ y.force = -31.6 * ((d - x.previous) / h) - 250.0 * d ∧
      y.direction = ⟨1, 0⟩ ∧
      straining h (some 10.0) (leash x) ⟨p, 0⟩ ⟨q, 0⟩ = .ok (leash y) := by
  have hlt : p < q := by linarith
  have htiny : ¬ q - p < tiny := by
    unfold tiny
    norm_num
    linarith
  refine ⟨⟨d, d, (d - x.previous) / h, -31.6 * ((d - x.previous) / h) - 250.0 * d, ⟨1, 0⟩⟩,
    rfl, rfl, rfl, straining_eq_ok_iff.2
      ⟨10.0, rfl, strained_eq_ok_iff.2 ⟨(d - x.previous) / h, ?_, .inr rfl, ?_⟩⟩⟩
  · rw [Point.distance_axis hlt.le, hd]
    exact divide_eq_ok_iff.2 ⟨hh, rfl⟩
  · rw [Point.distance_axis hlt.le, hd]
    unfold strainFor
    rw [Point.distance_axis hlt.le, if_neg htiny, Point.direction_axis hlt]
    rfl

/-- Nodes that were at rest are drawn together, or apart, both as far. -/
theorem leashed_move {f : ℝ} (hf : x.force = f) (hx : x.direction = ⟨1, 0⟩) (friction : ℝ) :
    ∃ u v, (leashed x p q Point.zero Point.zero).move friction h =
      leashed x (p - h * (h * f)) (q + h * (h * f)) u v := by
  have hpull : (leash x).pull = ⟨f, 0⟩ := by
    show x.force * x.direction = _
    rw [hf, hx]
    show Point.mk (f * 1) (f * 0) = _
    simp
  have hfirst : (leashed x p q Point.zero Point.zero).force friction ⟨0, ⟨p, 0⟩, Point.zero⟩ =
      ⟨-f, 0⟩ := by
    show -friction * Point.zero + -(leash x).pull = _
    rw [hpull, Point.smul_zero, Point.zero_eq]
    show Point.mk (0 + -f) (0 + -0) = _
    simp
  have hsecond : (leashed x p q Point.zero Point.zero).force friction ⟨1, ⟨q, 0⟩, Point.zero⟩ =
      ⟨f, 0⟩ := by
    show -friction * Point.zero + (leash x).pull = _
    rw [hpull, Point.smul_zero, Point.zero_eq]
    show Point.mk (0 + f) (0 + 0) = _
    simp
  have hplace : ∀ a g : ℝ, (Point.mk a 0 + h * (Point.zero + h * Point.mk g 0) : Point ℝ) =
      ⟨a + h * (h * g), 0⟩ := by
    intro a g
    rw [Point.zero_eq]
    show Point.mk (a + h * (0 + h * g)) (0 + h * (0 + h * 0)) = _
    simp
  refine ⟨Point.zero + h * Point.mk (-f) 0, Point.zero + h * Point.mk f 0, ?_⟩
  unfold Motion.move
  show Motion.mk _ [_, _] = _
  simp only [hfirst, hsecond, hplace, mul_neg, ← sub_eq_add_neg]
  rfl

theorem halved_lengthFor : halved.stepping.lengthFor 0.1 = .ok 0.05 := by
  refine divide_eq_ok_iff.2 ⟨?_, ?_⟩
  · show ((2 : Int) : ℝ) ≠ 0
    norm_num
  · show (0.1 : ℝ) / ((2 : Int) : ℝ) = 0.05
    norm_num

/-- In the second sub-step the leash is slack, and still braked. -/
theorem leashed_advanceTo :
    ∃ y u v, y.force = 632 ∧ (leashed Strain.none 0 3 Point.zero Point.zero).advanceTo
      halved.stepping 0.1 1 = .ok (leashed y 0.625 2.375 u v) := by
  have hthree : Point.distance (⟨0, 0⟩ : Point ℝ) ⟨3, 0⟩ = 3 := by
    rw [Point.distance_axis (by norm_num), sub_zero]
  have hrelaxed : relaxing (some 10.0) (leash Strain.none) ⟨0, 0⟩ ⟨3, 0⟩ =
      .ok (leash ⟨1, 1, 0.0, 0.0, Point.zero⟩) := by
    refine relaxing_eq_ok_iff.2 ⟨10.0, rfl, ?_⟩
    rw [relaxed, hthree, leash_taut]
    rfl
  have hstart : (leashed Strain.none 0 3 Point.zero Point.zero).look (relaxing (some 10.0)) =
      .ok (leashed ⟨1, 1, 0.0, 0.0, Point.zero⟩ 0 3 Point.zero Point.zero) :=
    leashed_look hrelaxed
  obtain ⟨y, hy, hforce, hdirection, hlook⟩ := leash_strained
    (x := ⟨1, 1, 0.0, 0.0, Point.zero⟩) (h := 0.05) (p := 0) (q := 3) (by norm_num)
    (by rw [sub_zero, leash_taut]) (by norm_num)
  have hpull : y.force = -250 := by
    rw [hforce]
    norm_num
  obtain ⟨u, v, hmove⟩ := leashed_move (p := 0) (q := 3) (h := 0.05) hpull hdirection 5.0
  have hplaces : (leashed y 0 3 Point.zero Point.zero).move 5.0 0.05 =
      leashed y 0.625 2.375 u v := by
    rw [hmove]
    norm_num
  obtain ⟨y', -, hforce', -, hlook'⟩ := leash_strained (x := y) (h := 0.05) (p := 0.625)
    (q := 2.375) (by norm_num) (leash_slack (by norm_num)) (by norm_num)
  refine ⟨y', u, v, ?_, ?_⟩
  · rw [hforce', hy]
    norm_num
  · have hsubstep : (leashed ⟨1, 1, 0.0, 0.0, Point.zero⟩ 0 3 Point.zero Point.zero).substep
        halved.stepping 0.05 = .ok (leashed y 0.625 2.375 u v) :=
      bind_eq_ok_iff.2 ⟨_, leashed_look hlook, congrArg Except.ok hplaces⟩
    exact bind_eq_ok_iff.2 ⟨0.05, halved_lengthFor, bind_eq_ok_iff.2 ⟨_, hstart,
      bind_eq_ok_iff.2 ⟨_, bind_eq_ok_iff.2 ⟨_, hsubstep, rfl⟩, leashed_look hlook'⟩⟩⟩

/-- A spring that comes back within its bounds is braked: it is not displaced, but exerts a
force. -/
theorem not_slack_leash :
    let w := (after (leashRun 3) (empty halved {} {})).toScene
    let t := (Scene.advanceTo 0.1 1 w).state
    (∀ l ∈ halved.stepping.lengthCap, 0 ≤ l) ∧ (Scene.advanceTo 0.1 1 w).outcome = .ok () ∧
      0 ∈ w.graph.listed ∧ t.Within 0 ∧ (t.spring 0).strain.force = 632 := by
  intro w t
  have hw : w.Sound := (sound_after halved {} {} (leashRun 3)).scene
  have hlisted : w.graph.listed = [0] := rfl
  have hcap : ∀ l ∈ halved.stepping.lengthCap, 0 ≤ l := by
    rintro l hl
    cases hl
    norm_num
  have hmotion : w.motion = leashed Strain.none 0 3 Point.zero Point.zero := rfl
  have hconfig : w.graph.config.stepping = halved.stepping := rfl
  obtain ⟨y, u, v, hy, hend⟩ := leashed_advanceTo
  have ht := Scene.advanceTo_motion hw 0.1 1
  rw [hconfig, hmotion, hend] at ht
  obtain ⟨_, hok, hmotion'⟩ := map_eq_ok_iff.1 ht
  have hlisted' : t.graph.listed = [0] := (Scene.advanceTo_strained w 0.1 1).alike.listed
  have hspring : t.spring 0 = leash y := by
    have hmembers : t.members = [leash y] := congrArg Motion.springs hmotion'
    rw [Scene.members, hlisted'] at hmembers
    exact List.singleton_inj.1 hmembers
  have hends : t.ends (t.spring 0) = .ok (⟨0.625, 0⟩, ⟨2.375, 0⟩) := by
    have hm : t.motion = leashed y 0.625 2.375 u v := hmotion'
    rw [← Scene.motion_ends, hm, hspring]
    rfl
  have hwithin : t.Within 0 := by
    refine ⟨_, hends, ?_⟩
    rw [hspring]
    refine between_leash.2 ?_
    rw [Point.distance_axis (by norm_num)]
    norm_num
  exact ⟨hcap, hok, by simp [hlisted], hwithin, by rw [hspring]; exact hy⟩

end Bench

end Linkage
