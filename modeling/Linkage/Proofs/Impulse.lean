import Linkage.Proofs.Slack
import Linkage.Proofs.Momentum

/-!
# What a sub-step can do at most

The cap on displacements bounds everything that a spring does. Its displacement is capped in every
sub-step and was capped in the one before, or at the start of the frame, so the displacement changes
by no more than twice the cap, and the force is bounded by the constants of the spring
(`Scene.advanceTo_capped`). So a sub-step changes the velocity of a node by no more than friction
and the springs at it allow, however far away their other ends are (`Scene.advanceBy_pushed`).
-/

namespace Linkage

open Act Scalar

namespace Spring

variable {s s' : Spring ℝ} {a b : Point ℝ} {l h x : ℝ}

/-- The spring does no more than it may in a sub-step of length `h` under the cap `l`. -/
structure Capped (l h : ℝ) (s : Spring ℝ) : Prop where
  displacement : |s.strain.displacement| ≤ l
  rate : |s.strain.rate| ≤ 2 * l / h
  force : ∀ k, (s.forceAt k).length ≤ s.stiffness * l + 2 * s.damping * l / h

/-- What so much force does to a velocity in the sub-step. -/
theorem mul_force_bound (hh : h ≠ 0) (s : Spring ℝ) (l : ℝ) :
    h * (s.stiffness * l + 2 * s.damping * l / h) = s.stiffness * l * h + 2 * s.damping * l := by
  field_simp

theorem abs_cappedAt_le (hl : 0 ≤ l) : |s.cappedAt x l| ≤ l :=
  abs_le.2 (clamp_mem (neg_le_self hl) _)

/-- A rail takes the part of the force along it away and adds nothing. -/
theorem length_pull_le (s : Spring ℝ) :
    s.pull.length ≤ |s.strain.force| * s.strain.direction.length := by
  unfold pull
  rw [← Point.length_mul]
  split
  · exact Point.length_dot_mul_le _ (Point.length_unit_le _)
  · exact le_rfl

theorem length_forceAt_le (s : Spring ℝ) (k : Key) : (s.forceAt k).length ≤ s.pull.length := by
  unfold forceAt
  split
  · exact le_rfl
  · split
    · rw [Point.length_neg]
    · rw [Point.zero_def, Point.length_zero]
      exact s.pull.length_nonneg

theorem length_direction_strainFor_le (s : Spring ℝ) (a b : Point ℝ) (d rate : ℝ) :
    (s.strainFor a b d rate).direction.length ≤ 1 := by
  unfold strainFor
  split
  · show (Point.zero : Point ℝ).length ≤ 1
    rw [Point.zero_def, Point.length_zero]
    exact zero_le_one
  · exact (Point.length_ofAngle _).le

theorem abs_force_strainFor_le (hk : 0 ≤ s.stiffness) (hd : 0 ≤ s.damping) (a b : Point ℝ)
    (d rate : ℝ) :
    |(s.strainFor a b d rate).force| ≤ s.stiffness * |d| + s.damping * |rate| := by
  unfold strainFor
  split
  · show |(0.0 : ℝ)| ≤ _
    rw [zero_eq, abs_zero]
    positivity
  · calc |-s.damping * rate - s.stiffness * d|
        ≤ |-s.damping * rate| + |s.stiffness * d| := abs_sub _ _
      _ = s.stiffness * |d| + s.damping * |rate| := by
        rw [abs_mul, abs_mul, abs_neg, abs_of_nonneg hk, abs_of_nonneg hd, add_comm]

/-- Where the displacement before was capped too, it has changed by no more than twice the cap. -/
theorem capped_of_strained (hl : 0 ≤ l) (hh : 0 < h) (hk : 0 ≤ s.stiffness) (hd : 0 ≤ s.damping)
    (hp : |s.strain.previous| ≤ l) (e : s.strained a b h l = .ok s') : Capped l h s' := by
  obtain ⟨rate, hrate, -, rfl⟩ := strained_eq_ok_iff.1 e
  obtain ⟨-, rfl⟩ := divide_eq_ok_iff.1 hrate
  generalize hdisp : s.cappedAt (Point.distance a b) l = d
  have habs : |d| ≤ l := hdisp ▸ abs_cappedAt_le hl
  have hchange : |(d - s.strain.previous) / h| ≤ 2 * l / h := by
    rw [abs_div, abs_of_pos hh]
    gcongr
    linarith [abs_sub d s.strain.previous]
  refine ⟨?displacement, ?rate, fun k => ?force⟩
  case displacement =>
    show |(s.strainFor a b d _).displacement| ≤ l
    unfold strainFor
    split <;> exact habs
  case rate =>
    show |(s.strainFor a b d _).rate| ≤ _
    unfold strainFor
    split <;> exact hchange
  case force =>
    refine (length_forceAt_le _ k).trans ((length_pull_le _).trans ?_)
    let x := s.strainFor a b d ((d - s.strain.previous) / h)
    calc |x.force| * x.direction.length
        ≤ |x.force| * 1 :=
          mul_le_mul_of_nonneg_left (length_direction_strainFor_le ..) (abs_nonneg _)
      _ = |x.force| := mul_one _
      _ ≤ s.stiffness * |d| + s.damping * |(d - s.strain.previous) / h| :=
          abs_force_strainFor_le hk hd a b d _
      _ ≤ s.stiffness * l + s.damping * (2 * l / h) := by gcongr
      _ = s.stiffness * l + 2 * s.damping * l / h := by ring

end Spring

/-- A frame is divided by every count that is not zero. -/
theorem Stepping.lengthFor_of_pos {c : Stepping ℝ} {dt : ℝ} {steps : Number ℝ} {n : ℕ}
    (hsteps : c.stepsFor dt = .ok (.number steps)) (hn : steps.times = .ok n) (hpos : 0 < n) :
    c.lengthFor dt = .ok (dt / n) := by
  rw [lengthFor_eq hsteps, Number.val_eq_of_pos hn hpos]
  exact divide_eq_ok_iff.2 ⟨Nat.cast_ne_zero.2 hpos.ne', rfl⟩

theorem Stepping.splits_of_pos {c : Stepping ℝ} {dt : ℝ} {steps : Number ℝ} {n : ℕ} (hdt : 0 < dt)
    (hcap : ∃ cap, c.lengthCap = some cap) (hfriction : ∃ friction, c.friction = some friction)
    (hsteps : c.stepsFor dt = .ok (.number steps)) (hn : steps.times = .ok n) (hpos : 0 < n) :
    c.Splits dt steps n (dt / n) := by
  have hlength : dt / n ≠ 0 := div_ne_zero hdt.ne' (Nat.cast_ne_zero.2 hpos.ne')
  have hdivide : divide dt steps.val = .ok (dt / n) :=
    (lengthFor_eq hsteps).symm.trans (lengthFor_of_pos hsteps hn hpos)
  exact ⟨hsteps, hn, hdivide, isZero_eq_false hlength, hcap, hfriction⟩

theorem length_foldl_le {α : Type} (g : α → Point ℝ) (xs : List α) (a : Point ℝ) :
    (xs.foldl (fun v x => v + g x) a).length ≤ a.length + (xs.map fun x => (g x).length).sum := by
  induction xs generalizing a with
  | nil => simp
  | cons x xs ih =>
    rw [List.foldl_cons, List.map_cons, List.sum_cons]
    linarith [ih (a + g x), Point.length_add_le a (g x)]

namespace Scene

variable {w t u : Scene ℝ} {r : Ref} {n : Node ℝ} {dt h l friction : ℝ} {j : ℕ}

/-! ### Springs -/

theorem Looked.capped (hlook : Looked (Spring.straining h (some l)) u t) (hr : r ∈ u.graph.listed)
    (hl : 0 ≤ l) (hh : 0 < h) (hk : 0 ≤ (u.spring r).stiffness) (hd : 0 ≤ (u.spring r).damping)
    (hp : |(u.spring r).strain.previous| ≤ l) : Spring.Capped l h (t.spring r) := by
  obtain ⟨p, -, e⟩ := hlook.spring r hr
  obtain ⟨_, hcap, e⟩ := Spring.straining_eq_ok_iff.1 e
  cases hcap
  exact Spring.capped_of_strained hl hh hk hd hp e

theorem abs_previous_le (hw : w.Sound) (hok : (advanceTo dt j w).outcome = .ok ())
    (hcap : w.graph.config.stepping.lengthCap = some l) (hl : 0 ≤ l) (hr : r ∈ w.graph.listed) :
    |((advanceTo dt j w).state.spring r).strain.previous| ≤ l := by
  obtain ⟨h, hh⟩ := exists_lengthFor_of_advanceTo hok
  obtain ⟨u, hu, hlook⟩ := advanceTo_looked hw hok hh
  obtain ⟨p, -, e⟩ := hlook.spring r (hu.alike.listed ▸ hr)
  obtain ⟨_, hcap', e⟩ := Spring.straining_eq_ok_iff.1 e
  cases hcap.symm.trans hcap'
  obtain ⟨hprevious, hdisplacement⟩ := Spring.previous_strained e
  rw [hprevious, hdisplacement]
  exact Spring.abs_cappedAt_le hl

/-- In every sub-step: the start of the frame and the sub-step before have capped the displacement
that the spring comes from. -/
theorem advanceTo_capped (hw : w.Sound) (hok : (advanceTo dt j w).outcome = .ok ())
    (hh : w.graph.config.stepping.lengthFor dt = .ok h) (hpos : 0 < h)
    (hcap : w.graph.config.stepping.lengthCap = some l) (hl : 0 ≤ l) (hr : r ∈ w.graph.listed)
    (hk : 0 ≤ (w.spring r).stiffness) (hd : 0 ≤ (w.spring r).damping) :
    Spring.Capped l h ((advanceTo dt j w).state.spring r) := by
  have hconstants : ∀ u, Strained w u →
      r ∈ u.graph.listed ∧ 0 ≤ (u.spring r).stiffness ∧ 0 ≤ (u.spring r).damping := by
    intro u hu
    refine ⟨hu.alike.listed ▸ hr, ?_⟩
    rw [hu.spring r]
    exact ⟨hk, hd⟩
  cases j with
  | zero =>
    obtain ⟨v, hv, hlook⟩ := advanceTo_zero_spec hw hok hh
    obtain ⟨hrv, hkv, hdv⟩ := hconstants v hv.idle.strained
    obtain ⟨p, -, e⟩ := hv.spring r hr
    obtain ⟨_, hcap', e⟩ := Spring.relaxing_eq_ok_iff.1 e
    cases hcap.symm.trans hcap'
    rw [hcap] at hlook
    refine hlook.capped hrv hl hpos hkv hdv ?_
    rw [← e]
    exact Spring.abs_cappedAt_le hl
  | succ i =>
    obtain ⟨hbefore, u, hu, hspring, hlook⟩ := advanceTo_succ_spec hw hok hh
    obtain ⟨hru, hku, hdu⟩ := hconstants u hu
    rw [hcap] at hlook
    refine hlook.capped hru hl hpos hku hdu ?_
    rw [hspring]
    exact abs_previous_le hw hbefore hcap hl hr

/-! ### Nodes -/

theorem length_netForce_le (ht : t.Sound) (hn : n ∈ t.graph.nodes) (hf : 0 ≤ friction)
    (hcapped : ∀ r ∈ t.graph.listed, Spring.Capped l h (t.spring r)) :
    (n.netForce t.springOf friction).length ≤ friction * n.velocity.length +
      ((t.touching (some n.id)).map fun r =>
        (t.spring r).stiffness * l + 2 * (t.spring r).damping * l / h).sum := by
  have hforce : n.netForce t.springOf friction = (t.touching (some n.id)).foldl
      (fun f r => f + (t.spring r).forceAt (some n.id)) (-friction * n.velocity) := by
    have hfold := foldl_springOf ht (fun f s => f + s.forceAt (some n.id))
      (t.touching (some n.id)) (fun r hr => (mem_touching.1 hr).1) n.springIds
      (ht.attached n hn) (-friction * n.velocity)
    rwa [List.foldl_map] at hfold
  rw [hforce]
  refine (length_foldl_le _ _ _).trans (add_le_add ?_ (List.sum_le_sum fun r hr => ?_))
  · rw [Point.length_mul, abs_neg, abs_of_nonneg hf]
  · exact (hcapped r (mem_touching.1 hr).1).force _

theorem length_moved_sub_le (ht : t.Sound) (hn : n ∈ t.graph.nodes) (hf : 0 ≤ friction)
    (hh : 0 < h) (hcapped : ∀ r ∈ t.graph.listed, Spring.Capped l h (t.spring r)) :
    ((n.moved t.springOf friction h).velocity - n.velocity).length ≤
      friction * n.velocity.length * h +
        ((t.touching (some n.id)).map fun r =>
          (t.spring r).stiffness * l * h + 2 * (t.spring r).damping * l).sum := by
  have hchange : (n.moved t.springOf friction h).velocity - n.velocity =
      h * n.netForce t.springOf friction := add_sub_cancel_left _ _
  rw [hchange, Point.length_mul, abs_of_pos hh]
  calc h * (n.netForce t.springOf friction).length
      ≤ h * (friction * n.velocity.length +
          ((t.touching (some n.id)).map fun r =>
            (t.spring r).stiffness * l + 2 * (t.spring r).damping * l / h).sum) :=
        mul_le_mul_of_nonneg_left (length_netForce_le ht hn hf hcapped) hh.le
    _ = friction * n.velocity.length * h +
          ((t.touching (some n.id)).map fun r =>
            h * ((t.spring r).stiffness * l + 2 * (t.spring r).damping * l / h)).sum := by
        rw [List.sum_map_mul_left]
        ring
    _ = friction * n.velocity.length * h +
          ((t.touching (some n.id)).map fun r =>
            (t.spring r).stiffness * l * h + 2 * (t.spring r).damping * l).sum := by
        simp only [Spring.mul_force_bound hh.ne']

/-- A sub-step of length `h` of a frame that began at `w` moves all nodes, and changes their
velocities by no more than friction and the springs at them allow. -/
theorem advanceBy_pushed (hw : w.Sound) (hok : (advanceBy dt (j + 1) w).outcome = .ok ())
    (hh : w.graph.config.stepping.lengthFor dt = .ok h) (hpos : 0 < h)
    (hfriction : w.graph.config.stepping.friction = some friction) (hf : 0 ≤ friction)
    (hcapped : ∀ r ∈ w.graph.listed, Spring.Capped l h ((advanceTo dt j w).state.spring r)) :
    List.Forall₂ (fun n n' => n'.id = n.id ∧ (n'.velocity - n.velocity).length ≤
        friction * n.velocity.length * h +
          ((w.touching (some n.id)).map fun r =>
            (w.spring r).stiffness * l * h + 2 * (w.spring r).damping * l).sum)
      (advanceBy dt j w).state.graph.nodes (advanceBy dt (j + 1) w).state.graph.nodes := by
  obtain ⟨hbefore, hmove⟩ := advanceBy_succ_spec hok hh hfriction
  obtain ⟨-, hgraph⟩ := advanceTo_spec hbefore
  have ht : Strained w (advanceTo dt j w).state := advanceTo_strained w dt j
  rw [hmove, ← hgraph]
  show List.Forall₂ _ _ (List.map _ _)
  rw [List.forall₂_map_right_iff, List.forall₂_same]
  intro n hn
  refine ⟨rfl, ?_⟩
  have hbound := length_moved_sub_le (hw.alike ht.alike) hn hf hpos fun r hr =>
    hcapped r (ht.alike.listed ▸ hr)
  have hconstants : ∀ r,
      ((advanceTo dt j w).state.spring r).stiffness = (w.spring r).stiffness ∧
        ((advanceTo dt j w).state.spring r).damping = (w.spring r).damping := by
    intro r
    rw [ht.spring r]
    exact ⟨rfl, rfl⟩
  simpa only [ht.alike.touching, hconstants] using hbound

end Scene

namespace Bench

/-- After every run that leaves springs whose stiffness and damping are numbers, and not below zero,
a frame of positive length under a positive cap succeeds. In each of its sub-steps no spring is
displaced by more than the cap, none changes its displacement by more than twice the cap, and none
exerts more force than its constants allow; so no node changes its velocity by more than friction
and the springs at it allow. -/
theorem capped_after_run (c : Config ℝ) (springs : Arena (Spring ℝ))
    (quantities : Arena (Quantity ℝ)) (ops : List (Op ℝ)) (l friction dt : ℝ) (steps : Number ℝ)
    (n : ℕ) :
    let w := (after ops (empty c springs quantities)).toScene
    let h := dt / n
    (∀ s ∈ w.members, ∃ k, s.constants = some k ∧ 0 ≤ k.stiffness ∧ 0 ≤ k.damping) →
      c.stepping.lengthCap = some l → 0 < l → c.stepping.friction = some friction →
      0 ≤ friction → 0 < dt → c.stepping.stepsFor dt = .ok (.number steps) →
      steps.times = .ok n → ∀ j < n,
        (Scene.advance dt w).outcome = .ok () ∧
        (Scene.advanceTo dt j w).outcome = .ok () ∧
        (Scene.advanceBy dt (j + 1) w).outcome = .ok () ∧
        (∀ r ∈ w.graph.listed, Spring.Capped l h ((Scene.advanceTo dt j w).state.spring r)) ∧
        List.Forall₂ (fun m m' => m'.id = m.id ∧ (m'.velocity - m.velocity).length ≤
            friction * m.velocity.length * h + ((w.touching (some m.id)).map fun r =>
              (w.spring r).stiffness * l * h + 2 * (w.spring r).damping * l).sum)
          (Scene.advanceBy dt j w).state.graph.nodes
          (Scene.advanceBy dt (j + 1) w).state.graph.nodes := by
  intro w h hconstants hcap hl hfriction hf hdt hsteps hn j hj
  have hw : w.Sound := (sound_after c springs quantities ops).scene
  have hconfig : w.graph.config = c := config_after c springs quantities ops
  rw [← hconfig] at hcap hfriction hsteps
  have hn0 : 0 < n := Nat.zero_lt_of_lt hj
  have hpos : 0 < h := div_pos hdt (Nat.cast_pos.2 hn0)
  have hdt' : ¬ dt ≤ 0.0 := not_le_zero hdt
  have hsplits := Stepping.splits_of_pos hdt ⟨l, hcap⟩ ⟨friction, hfriction⟩ hsteps hn hn0
  have hlength : w.graph.config.stepping.lengthFor dt = .ok h :=
    Stepping.lengthFor_of_pos hsteps hn hn0
  have hnum : w.Numeric := fun s hs => by
    obtain ⟨k, hk, -⟩ := hconstants s hs
    rw [hk]
    rfl
  have hnonneg : ∀ r ∈ w.graph.listed, 0 ≤ (w.spring r).stiffness ∧ 0 ≤ (w.spring r).damping := by
    intro r hr
    obtain ⟨k, hk, hstiffness, hdamping⟩ := hconstants _ (List.mem_map_of_mem hr)
    rw [Spring.stiffness, Spring.damping, hk]
    exact ⟨hstiffness, hdamping⟩
  have hok : (Scene.advance dt w).outcome = .ok () := Scene.advance_ok hw hnum hsplits
  have hto : (Scene.advanceTo dt j w).outcome = .ok () :=
    Scene.advanceTo_ok_of_advance hdt' hsteps hn hok hj
  have hby : (Scene.advanceBy dt (j + 1) w).outcome = .ok () :=
    (Scene.advanceBy_of_advance hw hdt' hsteps hn hok).1 (j + 1) hj
  have hcapped : ∀ r ∈ w.graph.listed,
      Spring.Capped l h ((Scene.advanceTo dt j w).state.spring r) := fun r hr =>
    Scene.advanceTo_capped hw hto hlength hpos hcap hl.le hr (hnonneg r hr).1 (hnonneg r hr).2
  exact ⟨hok, hto, hby, hcapped,
    Scene.advanceBy_pushed hw hby hlength hpos hfriction hf hcapped⟩

/-- A leash that is far too long pulls no harder than its cap allows, up to the last sub-step. -/
theorem capped_leash :
    let w := (after (leashRun 1000) (empty default {} {} : Bench ℝ)).toScene
    (∀ s ∈ w.members, ∃ k, s.constants = some k ∧ 0 ≤ k.stiffness ∧ 0 ≤ k.damping) ∧
      (Scene.advanceTo 1 24 w).outcome = .ok () ∧ 0 ∈ w.graph.listed ∧
      Spring.Capped 10.0 (1 / (25 : ℕ)) ((Scene.advanceTo 1 24 w).state.spring 0) := by
  intro w
  have hlisted : w.graph.listed = [0] := rfl
  have hmembers : w.members = [w.spring 0] := rfl
  have hconstants : ∀ s ∈ w.members,
      ∃ k, s.constants = some k ∧ 0 ≤ k.stiffness ∧ 0 ≤ k.damping := by
    rw [hmembers]
    refine List.forall_mem_singleton.2 ⟨_, rfl, ?_, ?_⟩
    · show (0 : ℝ) ≤ 250.0
      norm_num
    · show (0 : ℝ) ≤ 31.6
      norm_num
  obtain ⟨-, hto, -, hcapped, -⟩ := capped_after_run default {} {} (leashRun 1000) 10.0 5.0 1
    (.whole 25) 25 hconstants rfl (by norm_num) rfl (by norm_num) one_pos rfl rfl 24 (by norm_num)
  have hmem : 0 ∈ w.graph.listed := by simp [hlisted]
  exact ⟨hconstants, hto, hmem, hcapped 0 hmem⟩

end Bench

end Linkage
