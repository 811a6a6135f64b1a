import Linkage.Proofs.Wide
import Linkage.Proofs.Supply

/-!
# Frames under settings that passed the check

The check compares every setting with its bound and complains if it is on the wrong side. This lets
two things through that no frame can be split by: a fixed count that is not whole, and a longest
sub-step that is undefined. `Stepping.Counts` leaves them out, and then every frame succeeds; where
one of them is in use, every frame fails (`Bench.frames_after_check`). The springs that the scene
makes have numbers for constants then; of one that was made elsewhere the settings know nothing.
-/

namespace Linkage

variable {s : Stepping Wide} {c : Settings Wide} {dt : ℝ}

namespace Stepping

/-- Where the count is fixed, it is no decimal; where it is not, the longest sub-step is defined. -/
def Counts (s : Stepping Wide) : Prop :=
  match s.policy with
  | .maxDuration => s.maxSubstep ≠ some .undefined
  | _ => ∀ x, s.substeps ≠ .number (.real x)

end Stepping

/-! ### Counts -/

/-- A count that is whole and not below one. -/
structure Number.IsCount (steps : Number Wide) (n : Nat) : Prop where
  times : steps.times = .ok n
  val : steps.val = .real n
  pos : 1 ≤ n

theorem Number.isCount_whole {k : Int} (hk : 1 ≤ k) : (Number.whole k).IsCount k.toNat := by
  refine ⟨rfl, ?_, by omega⟩
  have htoNat : ((k.toNat : ℕ) : ℝ) = (k : ℝ) := by
    exact_mod_cast Int.toNat_of_nonneg (by omega : 0 ≤ k)
  rw [htoNat]
  rfl

theorem Number.isCount_flag : (Number.flag true : Number Wide).IsCount 1 :=
  ⟨rfl, by simp [Number.val, Scalar.ofInt], Nat.le_refl 1⟩

/-- A number that is not below one and no decimal is a count. -/
theorem Number.exists_isCount {steps : Number Wide} (h : ¬ steps.val < 1.0)
    (hreal : ∀ x, steps ≠ .real x) : ∃ n, steps.IsCount n := by
  cases steps with
  | whole k =>
    have hk : ¬ (k : ℝ) < 1 := mt Wide.real_lt_one.2 h
    exact ⟨_, isCount_whole (by exact_mod_cast not_lt.1 hk)⟩
  | real x => exact absurd rfl (hreal x)
  | flag b =>
    cases b with
    | false =>
      have hzero : Wide.real ((0 : Int) : ℝ) < 1.0 := Wide.real_lt_one.2 (by norm_num)
      exact absurd hzero h
    | true => exact ⟨1, isCount_flag⟩

theorem leastCount_ok (dt : ℝ) {y : Wide} (hy : ¬ y ≤ 0.0) (hdef : y ≠ .undefined) :
    ∃ k, leastCount (.real dt) y = .ok k ∧ 1 ≤ k := by
  have hne : y ≠ .real 0 := by
    rintro rfl
    exact hy (Wide.real_le_zero.2 le_rfl)
  have hceil : ∃ k, Scalar.ceil (.real dt / y) = .ok k := by
    cases y with
    | real y =>
      rw [Wide.real_div_real fun e => hne (congrArg _ e)]
      exact ⟨_, rfl⟩
    | infinite s => exact ⟨_, rfl⟩
    | undefined => exact absurd rfl hdef
  obtain ⟨k, hk⟩ := hceil
  refine ⟨max 1 k, ?_, Int.le_max_left 1 k⟩
  simp only [leastCount, divide_ok (Wide.isZero_eq_false hne), hk, bind, Except.bind]
  rfl

theorem Stepping.stepsFor_undefined (hpolicy : s.policy = .maxDuration)
    (hmax : s.maxSubstep = some .undefined) :
    s.stepsFor (.real dt) = .error .undefinedCount := by
  have hdivide := divide_ok (x := Wide.real dt) (Wide.isZero_eq_false (x := .undefined) nofun)
  simp only [stepsFor, hpolicy, hmax, asNumber, leastCount, hdivide, bind, Except.bind]
  rfl

/-! ### Settings that passed -/

namespace Settings

theorem Fit.constants_isSome (hc : c.Fit) (kind : SpringKind) :
    (c.toConfig.constants kind).isSome := by
  obtain ⟨k, hk, -⟩ := hc.stiffness kind
  obtain ⟨d, hd, -⟩ := hc.damping kind
  show (c.constants? kind).isSome
  rw [constants?, hk, hd]
  rfl

/-- Every frame can be split, if there is a count. -/
theorem Fit.exists_splits (hc : c.Fit) (hs : c.toConfig.stepping.Counts) (hdt : 0 < dt) :
    ∃ steps n h, c.toConfig.stepping.Splits (.real dt) steps n h ∧ steps.IsCount n := by
  have hcount : ∃ steps n, c.toConfig.stepping.stepsFor (.real dt) = .ok (.number steps) ∧
      steps.IsCount n := by
    unfold Stepping.Counts at hs
    split at hs
    · next hpolicy =>
      obtain ⟨y, hy, hpos⟩ := hc.maxSubstep.exists_val
      have hy : c.toConfig.stepping.maxSubstep = some y := hy
      rw [hy] at hs
      obtain ⟨k, hk, hone⟩ := leastCount_ok dt (of_decide_eq_false hpos) fun e =>
        hs (congrArg some e)
      refine ⟨_, _, ?_, Number.isCount_whole hone⟩
      simp only [Stepping.stepsFor, hpolicy, hy, asNumber, hk, bind, Except.bind]
      rfl
    · next hpolicy =>
      obtain ⟨steps, hsteps, hone⟩ := hc.substeps.exists_number
      obtain ⟨n, hn⟩ := Number.exists_isCount (of_decide_eq_false hone) fun x e =>
        hs x (hsteps.trans (congrArg _ e))
      exact ⟨steps, n, (Stepping.stepsFor_fixed hpolicy).trans (congrArg _ hsteps), hn⟩
  obtain ⟨steps, n, hsteps, hn⟩ := hcount
  have hpos : (0 : ℝ) < n := by exact_mod_cast hn.pos
  have hlength : divide (.real dt) steps.val = .ok (.real (dt / n)) := by
    rw [hn.val, divide_ok (Wide.isZero_eq_false fun e => hpos.ne' (Wide.real.inj e)),
      Wide.real_div_real hpos.ne']
  have hne : Wide.real (dt / n) ≠ .real 0 := fun e => (div_pos hdt hpos).ne' (Wide.real.inj e)
  obtain ⟨cap, hcap, -⟩ := hc.lengthCap.exists_val
  obtain ⟨friction, hfriction, -⟩ := hc.friction.exists_val
  exact ⟨steps, n, _, ⟨hsteps, hn.times, hlength, Wide.isZero_eq_false hne, ⟨cap, hcap⟩,
    ⟨friction, hfriction⟩⟩, hn⟩

/-- There is no count if it is written as a decimal or if nothing can be divided by the longest
sub-step. -/
theorem Fit.not_counts (hc : c.Fit) (hs : ¬ c.toConfig.stepping.Counts) (dt : ℝ) :
    (∃ x, c.toConfig.stepping.stepsFor (.real dt) = .ok (.number (.real x)) ∧
      Scalar.isZero x = false) ∨
    c.toConfig.stepping.stepsFor (.real dt) = .error .undefinedCount := by
  unfold Stepping.Counts at hs
  split at hs
  · next hpolicy => exact .inr (Stepping.stepsFor_undefined hpolicy (not_not.1 hs))
  · next hpolicy =>
    left
    simp only [not_forall, not_not] at hs
    obtain ⟨x, hx⟩ := hs
    refine ⟨x, (Stepping.stepsFor_fixed hpolicy).trans (congrArg _ hx), Wide.isZero_eq_false ?_⟩
    obtain ⟨steps, hsteps, hone⟩ := hc.substeps.exists_number
    cases hsteps.symm.trans hx
    rintro rfl
    exact of_decide_eq_false hone (Wide.real_lt_one.2 one_pos)

/-- The standard settings with another way to count sub-steps. -/
noncomputable def counting (policy : String) (substeps maxSubstep : Number Wide) :
    Settings Wide :=
  { standard with
    policy := .text policy, substeps := .number substeps, maxSubstep := .number maxSubstep }

theorem fit_counting {policy : String} {substeps maxSubstep : Number Wide}
    (hpolicy : SubstepPolicy.ofName policy ≠ .other) (hsubsteps : ¬ substeps.val < 1.0)
    (hmax : ¬ maxSubstep.val ≤ 0.0) : (counting policy substeps maxSubstep).Fit := by
  have hpositive : ∀ x : ℝ, 0 < x → decide (Wide.real x ≤ 0.0) = false := fun x hx =>
    decide_eq_false (mt Wide.real_le_zero.1 hx.not_ge)
  have hnonneg : ∀ x : ℝ, 0 < x → decide (Wide.real x < 0.0) = false := fun x hx =>
    decide_eq_false (mt Wide.real_lt_zero.1 hx.not_gt)
  constructor
  case stiffness =>
    intro kind
    cases kind <;> exact ⟨_, rfl, hpositive _ (by norm_num)⟩
  case damping =>
    intro kind
    cases kind <;> exact ⟨_, rfl, hnonneg _ (by norm_num)⟩
  case policy => simpa [isPolicy, counting] using hpolicy
  case substeps => exact ⟨_, rfl, decide_eq_false hsubsteps⟩
  case maxSubstep => exact ⟨_, rfl, decide_eq_false hmax⟩
  case friction => exact ⟨_, rfl, hnonneg _ (by norm_num)⟩
  case lengthCap => exact ⟨_, rfl, hpositive _ (by norm_num)⟩

end Settings

namespace Bench

/-- After every run under settings that passed the check: if the settings have a count, then each
frame of finite positive length is split into a whole number of sub-steps, at least one, and does
not fail, unless a spring was listed by hand whose constants are no numbers. If they have none, then
every such frame fails, and leaves the graph as it was. -/
theorem frames_after_check (hc : c.check = .ok none) (springs : Arena (Spring Wide))
    (quantities : Arena (Quantity Wide)) (ops : List (Op Wide)) (hdt : 0 < dt) :
    let w := (after ops (empty c.toConfig springs quantities)).toScene
    let count := c.toConfig.stepping.stepsFor (.real dt)
    let advanced := Scene.advance (.real dt) w
    (c.toConfig.stepping.Counts →
      (∃ steps n, count = .ok (.number steps) ∧ steps.IsCount n) ∧
      ((∀ r ∈ w.graph.listed, .sketch (.scene (.enterSpring r)) ∈ ops →
        (w.spring r).constants.isSome) → advanced.outcome = .ok ())) ∧
    (¬ c.toConfig.stepping.Counts →
      ((∃ x, count = .ok (.number (.real x)) ∧ advanced.outcome = .error .notANumber) ∨
        (count = .error .undefinedCount ∧ advanced.outcome = .error .undefinedCount)) ∧
      advanced.state.graph = w.graph) := by
  intro w count advanced
  have hfit : c.Fit := Settings.check_eq_none_iff.1 hc
  have hstart : (empty c.toConfig springs quantities).toSketch.Sound := Sketch.sound_empty _ _ _
  have hrun := after_onward hstart ops
  have hw : w.Sound := hrun.sound.scene
  have hconfig : w.graph.config = c.toConfig := hrun.scene.config
  have hdt' : ¬ Wide.real dt ≤ 0.0 := mt Wide.real_le_zero.1 hdt.not_ge
  refine ⟨fun hs => ?_, fun hs => ?_⟩
  · obtain ⟨steps, n, h, hsplits, hn⟩ := hfit.exists_splits hs hdt
    have hsplits' : w.graph.config.stepping.Splits (.real dt) steps n h := by rwa [hconfig]
    refine ⟨⟨steps, n, hsplits.count, hn⟩, fun hentered => Scene.advance_ok hw ?_ hsplits'⟩
    exact numeric_after c.toConfig springs quantities ops hfit.constants_isSome hentered
  · have hfail : (∃ x, count = .ok (.number (.real x)) ∧ advanced.outcome = .error .notANumber) ∨
        (count = .error .undefinedCount ∧ advanced.outcome = .error .undefinedCount) := by
      rcases hfit.not_counts hs dt with ⟨x, hcount, hx⟩ | hcount
      · obtain ⟨cap, hcap, -⟩ := hfit.lengthCap.exists_val
        refine .inl ⟨x, hcount, Scene.advance_error hw ?_⟩
        rw [hconfig]
        exact (Scene.joined_motion hw).advance_uncounted hdt' hcount hx ⟨cap, hcap⟩ rfl
      · refine .inr ⟨hcount, Scene.advance_error hw ?_⟩
        rw [hconfig]
        exact Motion.advance_unsplit hdt' hcount
    have hnone : ∀ steps n, w.graph.config.stepping.stepsFor (.real dt) = .ok (.number steps) →
        steps.times = .ok n → n ≤ 1 := by
      -- nothing is done by a count that is none
      intro steps n hsteps hn
      rw [hconfig] at hsteps
      rcases hfail with ⟨x, hcount, -⟩ | ⟨hcount, -⟩
      · cases hcount.symm.trans hsteps
        cases hn
      · cases hcount.symm.trans hsteps
    refine ⟨hfail, (Scene.advance_idle hw hnone fun hok => ?_).graph⟩
    rcases hfail with ⟨x, -, hfail⟩ | ⟨-, hfail⟩ <;> cases hok.symm.trans hfail

/-- A node is pulled by a spring that is made by hand. -/
noncomputable def pulledRun : List (Op Wide) :=
  [.sketch (.scene (.addNode (.ofPoint ⟨.real 0, .real 0⟩))),
    .sketch (.scene (.makeSpring (.affix (some ⟨.real 1, .real 0⟩) (some 0)
      (some (.ofPoint ⟨.real 1, .real 0⟩))))),
    .sketch (.scene (.enterSpring 0))]

theorem frames_counted :
    let c := Settings.counting "fixed_count" (.whole 25) (.real .undefined)
    let w := (after pulledRun (empty c.toConfig {} {})).toScene
    c.check = .ok none ∧ c.toConfig.stepping.Counts ∧ w.graph.listed = [0] ∧
      (∀ r ∈ w.graph.listed, .sketch (.scene (.enterSpring r)) ∈ pulledRun →
        (w.spring r).constants.isSome) ∧ (Scene.advance (.real 1) w).outcome = .ok () := by
  intro c w
  have hc : c.check = .ok none := by
    refine Settings.check_eq_none_iff.2 (Settings.fit_counting (by decide) ?_ nofun)
    show ¬ Wide.real ((25 : Int) : ℝ) < 1.0
    rw [Wide.real_lt_one]
    norm_num
  have hs : c.toConfig.stepping.Counts := nofun
  have hlisted : w.graph.listed = [0] := rfl
  have hentered : ∀ r ∈ w.graph.listed, .sketch (.scene (.enterSpring r)) ∈ pulledRun →
      (w.spring r).constants.isSome := by
    intro r hr _
    rw [hlisted, List.mem_singleton] at hr
    rw [hr]
    rfl
  exact ⟨hc, hs, hlisted, hentered,
    ((frames_after_check hc {} {} pulledRun one_pos).1 hs).2 hentered⟩

/-- The check lets a count through that is written as a decimal, and an undefined sub-step. -/
theorem frames_uncounted :
    let decimal := Settings.counting "fixed_count" (.real (.real 2.5)) (.real (.real 1))
    let unbounded := Settings.counting "max_duration" (.whole 25) (.real .undefined)
    let advanced (c : Settings Wide) := Scene.advance (.real 1) (empty c.toConfig {} {}).toScene
    decimal.check = .ok none ∧ (advanced decimal).outcome = .error .notANumber ∧
      unbounded.check = .ok none ∧ (advanced unbounded).outcome = .error .undefinedCount := by
  intro decimal unbounded advanced
  have hw : ∀ c : Settings Wide, (empty c.toConfig {} {}).toScene.Sound := fun c =>
    (Sketch.sound_empty c.toConfig {} {}).scene
  have hdt : ¬ Wide.real 1 ≤ 0.0 := mt Wide.real_le_zero.1 one_pos.not_ge
  have hhalf : Wide.real 2.5 ≠ .real 0 := fun e => by
    have := Wide.real.inj e
    norm_num at this
  refine ⟨Settings.check_eq_none_iff.2 (Settings.fit_counting (by decide) ?_ hdt), ?_,
    Settings.check_eq_none_iff.2 (Settings.fit_counting (by decide) ?_ nofun), ?_⟩
  · show ¬ Wide.real 2.5 < 1.0
    rw [Wide.real_lt_one]
    norm_num
  · exact Scene.advance_error (hw decimal) ((Scene.joined_motion (hw decimal)).advance_uncounted
      hdt rfl (Wide.isZero_eq_false hhalf) ⟨_, rfl⟩ rfl)
  · show ¬ Wide.real ((25 : Int) : ℝ) < 1.0
    rw [Wide.real_lt_one]
    norm_num
  · exact Scene.advance_error (hw unbounded)
      (Motion.advance_unsplit hdt (Stepping.stepsFor_undefined rfl rfl))

end Bench

end Linkage
