import Mathlib.Algebra.BigOperators.Group.List.Basic
import Mathlib.Algebra.BigOperators.Intervals
import Mathlib.Tactic.Module
import Linkage.Proofs.Plane
import Linkage.Proofs.Rest
import Linkage.Proofs.Stepping

/-!
# Momentum

Springs between nodes pull one end as much as the other, back and forth. With exact numbers these
forces cancel out over all nodes, whatever the springs are and however they are joined, so that
nothing but friction changes the sum of the velocities (`Bench.momentum_after_run`). In a sub-step
of length `h` it shrinks by the factor `1 - friction * h`, and then it carries the sum of the places
along.
-/

namespace Linkage

open Act Scalar Finset

/-- What is done by a count that is not negative is done that often. -/
theorem Number.val_eq_of_times {steps : Number ℝ} {n : ℕ} (hn : steps.times = .ok n)
    (h : 0 ≤ steps.val) : steps.val = n := by
  cases steps with
  | whole z =>
    cases hn
    have hz : (0 : ℤ) ≤ z := by exact_mod_cast show (0 : ℝ) ≤ (z : ℝ) from h
    show ((z : ℤ) : ℝ) = (z.toNat : ℝ)
    exact_mod_cast (Int.toNat_of_nonneg hz).symm
  | real x => cases hn
  | flag b =>
    cases hn
    show (((if b then 1 else 0 : ℤ)) : ℝ) = (b.toNat : ℝ)
    cases b <;> simp

/-- A count by which something is done at all is not negative. -/
theorem Number.val_eq_of_pos {steps : Number ℝ} {n : ℕ} (hn : steps.times = .ok n)
    (hpos : 0 < n) : steps.val = n := by
  refine Number.val_eq_of_times hn ?_
  cases steps with
  | whole z =>
    cases hn
    have hz : 0 ≤ z := by omega
    show (0 : ℝ) ≤ (z : ℝ)
    exact_mod_cast hz
  | real x => cases hn
  | flag b =>
    show (0 : ℝ) ≤ ((if b then 1 else 0 : ℤ) : ℝ)
    cases b <;> simp

namespace Spring

variable {s s' : Spring ℝ} {i j : Id} {a : Point ℝ} {h cap : ℝ}

theorem forceAt_of_not_contains {k : Id} (hk : s.contains (some k) = false) :
    s.forceAt (some k) = 0 := by
  have hk : some k ∉ s.endpoints := by simpa [contains] using hk
  unfold endpoints at hk
  unfold forceAt
  split at hk
  · next p hp => simp_all [Anchor.key, Point.zero_def]
  · next i hi => simp_all [Anchor.key, Point.zero_def]

/-- A spring whose ends are in one place does not pull. -/
theorem pull_strained (e : s.strained a a h cap = .ok s') : s'.pull = 0 := by
  obtain ⟨rate, -, -, rfl⟩ := strained_eq_ok_iff.1 e
  have hzero : Point.distance a a < tiny := by
    rw [(Point.distance_eq_zero_iff a a).2 rfl]
    exact tiny_pos
  refine pull_eq_zero ?_
  simp only [strainFor, if_pos hzero]
  exact zero_eq

/-- What a spring does to one end it does to the other end the other way round. -/
theorem sum_forceAt {is : List Id} (his : is.Nodup) (hi : i ∈ is) (hj : j ∈ is)
    (ha : s.a = .node i) (hb : s.b = some j) (hs : i = j → s.pull = 0) :
    (is.map fun k => s.forceAt (some k)).sum = 0 := by
  have hforce : ∀ k, s.forceAt (some k) =
      if k = j then s.pull else if k = i then -s.pull else 0 := fun k => by
    simp only [forceAt, ha, hb, Anchor.key, Option.some.injEq]
    rfl
  simp only [hforce]
  rw [List.sum_map_ite_eq, List.sum_map_ite_eq, his.count, his.count, if_pos hi, if_pos hj]
  by_cases hij : i = j
  · simp [hs hij]
  · simp [Ne.symm hij]

end Spring

namespace Motion

variable {m m' : Motion ℝ} {c : Stepping ℝ} {friction h : ℝ}

/-- Every spring joins two of the bodies, and no two bodies have one id. -/
structure Closed (m : Motion ℝ) : Prop where
  nodup : (m.bodies.map Body.id).Nodup
  joins : ∀ s ∈ m.springs, ∃ i ∈ m.bodies.map Body.id, ∃ j ∈ m.bodies.map Body.id,
    s.a = .node i ∧ s.b = some j

/-- A spring from a body to itself does not pull. -/
def Fair (m : Motion ℝ) : Prop := ∀ s ∈ m.springs, s.a.key = s.b → s.pull = 0

noncomputable def momentum (m : Motion ℝ) : Point ℝ := (m.bodies.map Body.velocity).sum

/-- Where the bodies are, all told. -/
noncomputable def places (m : Motion ℝ) : Point ℝ := (m.bodies.map Body.position).sum

/-! ### Forces -/

/-- A spring adds its force to every body, which is zero where the spring is not at the body. -/
theorem foldl_forceAt (ss : List (Spring ℝ)) (i : Id) (f : Point ℝ) :
    (ss.filter (·.contains (some i))).foldl (fun f s => f + s.forceAt (some i)) f =
      f + (ss.map (·.forceAt (some i))).sum := by
  induction ss generalizing f with
  | nil => exact (add_zero f).symm
  | cons s ss ih =>
    rw [List.map_cons, List.sum_cons, ← add_assoc, ← ih]
    cases hs : s.contains (some i) with
    | true => simp [hs]
    | false => simp [hs, Spring.forceAt_of_not_contains hs]

theorem force_eq (m : Motion ℝ) (friction : ℝ) (b : Body ℝ) :
    m.force friction b =
      -friction * b.velocity + (m.springs.map (·.forceAt (some b.id))).sum :=
  foldl_forceAt m.springs b.id _

theorem sum_forces (ss : List (Spring ℝ)) (bs : List (Body ℝ))
    (hss : ∀ s ∈ ss, (bs.map fun b => s.forceAt (some b.id)).sum = 0) :
    (bs.map fun b => (ss.map (·.forceAt (some b.id))).sum).sum = 0 := by
  induction ss with
  | nil => simp
  | cons s ss ih =>
    obtain ⟨hs, hss⟩ := List.forall_mem_cons.1 hss
    simp only [List.map_cons, List.sum_cons]
    rw [List.sum_map_add, hs, ih hss, add_zero]

/-- The springs cancel out and friction is left. -/
theorem sum_force (hm : m.Closed) (hf : m.Fair) (friction : ℝ) :
    (m.bodies.map (m.force friction)).sum = -friction • m.momentum := by
  have hsprings : ∀ s ∈ m.springs, (m.bodies.map fun b => s.forceAt (some b.id)).sum = 0 := by
    intro s hs
    obtain ⟨i, hi, j, hj, ha, hb⟩ := hm.joins s hs
    have hsum := Spring.sum_forceAt hm.nodup hi hj ha hb fun e => hf s hs (by rw [ha, hb, e]; rfl)
    rwa [List.map_map] at hsum
  have hforce : m.force friction = fun b =>
      -friction * b.velocity + (m.springs.map (·.forceAt (some b.id))).sum :=
    funext (m.force_eq friction)
  rw [hforce, List.sum_map_add, sum_forces _ _ hsprings, add_zero, momentum, List.smul_sum,
    List.map_map]
  rfl

/-! ### One sub-step -/

theorem momentum_move (hm : m.Closed) (hf : m.Fair) (friction h : ℝ) :
    (m.move friction h).momentum = (1 - friction * h) • m.momentum := by
  have hsum : (m.move friction h).momentum =
      m.momentum + h • (m.bodies.map (m.force friction)).sum := by
    rw [momentum, momentum, List.smul_sum, List.map_map, ← List.sum_map_add]
    show ((m.bodies.map _).map Body.velocity).sum = _
    rw [List.map_map]
    rfl
  rw [hsum, sum_force hm hf]
  module

theorem places_move (m : Motion ℝ) (friction h : ℝ) :
    (m.move friction h).places = m.places + h • (m.move friction h).momentum := by
  rw [places, places, momentum, List.smul_sum]
  show ((m.bodies.map _).map Body.position).sum =
    _ + (((m.bodies.map _).map Body.velocity).map (h • ·)).sum
  rw [List.map_map, List.map_map, List.map_map, ← List.sum_map_add]
  rfl

theorem ends_eq_ok_iff {s : Spring ℝ} {i : Id} {k : Key} {p q : Point ℝ} (ha : s.a = .node i)
    (hb : s.b = k) :
    m.ends s = .ok (p, q) ↔ m.position (some i) = .ok p ∧ m.position k = .ok q := by
  simp only [ends, ha, hb]
  cases m.position (some i) <;> cases m.position k <;>
    simp [bind, Except.bind, pure, Except.pure]

theorem Closed.congr (hm : m.Closed) (hids : m'.bodies.map Body.id = m.bodies.map Body.id)
    (hs : ∀ s' ∈ m'.springs, ∃ s ∈ m.springs, s'.a = s.a ∧ s'.b = s.b) : m'.Closed := by
  refine ⟨hids ▸ hm.nodup, fun s' hs' => ?_⟩
  obtain ⟨s, hs, ha, hb⟩ := hs s' hs'
  rw [ha, hb, hids]
  exact hm.joins s hs

theorem Closed.look {f : Spring ℝ → Point ℝ → Point ℝ → Except (Failure ℝ) (Spring ℝ)}
    (hm : m.Closed) (hf : Scene.StrainOnly f) (e : m.look f = .ok m') : m'.Closed := by
  refine hm.congr (by rw [(look_eq_ok_iff.1 e).1]) fun s' hs' => ?_
  obtain ⟨s, hs, p, -, hs'⟩ := exists_of_look e hs'
  rw [hf s _ _ s' hs']
  exact ⟨s, hs, rfl, rfl⟩

theorem Closed.move (hm : m.Closed) (friction h : ℝ) : (m.move friction h).Closed :=
  hm.congr (by simp [Motion.move]) fun s hs => ⟨s, hs, rfl, rfl⟩

/-- The ends of a spring from a body to itself are in one place. -/
theorem Closed.fair_of_look {cap : Option ℝ} (hm : m.Closed)
    (e : m.look (fun s a b => (asNumber cap).bind (s.strained a b h)) = .ok m') : m'.Fair := by
  intro s' hs' hkey
  obtain ⟨s, hs, ⟨a, b⟩, hp, e⟩ := exists_of_look e hs'
  obtain ⟨i, -, j, -, ha, hb⟩ := hm.joins s hs
  rw [Scene.strainOnly_strained h cap s _ _ s' e] at hkey
  have hij : some i = s.b := by simpa [ha, Anchor.key] using hkey
  obtain ⟨hpa, hpb⟩ := (ends_eq_ok_iff ha hij.symm).1 hp
  cases hpa.symm.trans hpb
  cases cap with
  | none => cases e
  | some cap => exact Spring.pull_strained e

theorem Closed.substep (hm : m.Closed) (hc : c.friction = some friction)
    (e : m.substep c h = .ok m') :
    m'.Closed ∧ m'.momentum = (1 - friction * h) • m.momentum ∧
      m'.places = m.places + h • m'.momentum := by
  unfold Motion.substep at e
  obtain ⟨u, hu, e⟩ := bind_eq_ok_iff.1 e
  have hclosed : u.Closed := hm.look (Scene.strainOnly_strained h _) hu
  have hbodies : u.bodies = m.bodies := (look_eq_ok_iff.1 hu).1
  have hmomentum : u.momentum = m.momentum := by rw [momentum, momentum, hbodies]
  have hplaces : u.places = m.places := by rw [places, places, hbodies]
  rw [← hmomentum, ← hplaces]
  split at e
  · next hempty =>
    have hzero : u.momentum = 0 := by
      rw [momentum, List.isEmpty_iff.1 hempty]
      rfl
    cases e
    exact ⟨hclosed, by rw [hzero, smul_zero], by rw [hzero, smul_zero, add_zero]⟩
  · rw [hc] at e
    cases e
    exact ⟨hclosed.move friction h, momentum_move hclosed (hm.fair_of_look hu) friction h,
      places_move u friction h⟩

/-! ### A frame -/

theorem sum_pow_Icc_succ (q : ℝ) (n : ℕ) :
    ∑ k ∈ Icc 1 (n + 1), q ^ k = q + (∑ k ∈ Icc 1 n, q ^ k) * q := by
  induction n with
  | zero => simp
  | succ n ih =>
    have hlast := sum_Icc_succ_top (show 1 ≤ n + 1 by omega) (q ^ ·)
    rw [sum_Icc_succ_top (by omega)]
    linear_combination ih - q * hlast

theorem Closed.substeps (hm : m.Closed) (hc : c.friction = some friction) {n : ℕ}
    (e : m.substeps c h n = .ok m') :
    m'.momentum = (1 - friction * h) ^ n • m.momentum ∧
      m'.places = m.places + (h * ∑ k ∈ Icc 1 n, (1 - friction * h) ^ k) • m.momentum := by
  induction n generalizing m with
  | zero =>
    cases e
    simp
  | succ n ih =>
    obtain ⟨u, hu, e⟩ := bind_eq_ok_iff.1 e
    obtain ⟨hclosed, hmomentum, hplaces⟩ := hm.substep hc hu
    obtain ⟨hmomentum', hplaces'⟩ := ih hclosed e
    constructor
    · rw [hmomentum', hmomentum, smul_smul, pow_succ]
    · -- the later sub-steps start from velocities that have been through this one
      rw [hplaces', hplaces, hmomentum, sum_pow_Icc_succ]
      module

theorem Closed.advance (hm : m.Closed) {dt : ℝ} (hdt : 0 < dt) {steps : Number ℝ} {n : ℕ}
    (hc : c.friction = some friction) (hsteps : c.stepsFor dt = .ok (.number steps))
    (hn : steps.times = .ok n) (e : m.advance c dt = .ok m') :
    m'.momentum = (1 - friction * (dt / steps.val)) ^ n • m.momentum ∧
      m'.places = m.places +
        (dt / steps.val * ∑ k ∈ Icc 1 n, (1 - friction * (dt / steps.val)) ^ k) • m.momentum := by
  have hpos : ¬ dt ≤ 0.0 := by rw [Scalar.zero_eq]; exact not_le.2 hdt
  rw [Motion.advance, if_neg hpos, hsteps] at e
  obtain ⟨_, hsteps', e⟩ := bind_eq_ok_iff.1 e
  cases hsteps'
  obtain ⟨h, hh, e⟩ := bind_eq_ok_iff.1 e
  obtain ⟨u, hu, e⟩ := bind_eq_ok_iff.1 e
  rw [hn] at e
  obtain ⟨v, hv, rfl⟩ := map_eq_ok_iff.1 e
  obtain ⟨-, rfl⟩ := divide_eq_ok_iff.1 hh
  have hbodies : u.bodies = m.bodies := (look_eq_ok_iff.1 hu).1
  have hspec := (hm.look (Scene.strainOnly_relaxed _) hu).substeps hc hv
  rwa [momentum, momentum, places, places, hbodies] at hspec

end Motion

namespace Scene

variable {w : Scene ℝ}

theorem momentum_motion (w : Scene ℝ) :
    w.motion.momentum = (w.graph.nodes.map Node.velocity).sum := by
  rw [Motion.momentum, motion, List.map_map]
  rfl

theorem places_motion (w : Scene ℝ) :
    w.motion.places = (w.graph.nodes.map Node.position).sum := by
  rw [Motion.places, motion, List.map_map]
  rfl

theorem closed_motion (h : w.Sound) (hjoin : ∀ s ∈ w.members, s.a.literal? = none) :
    w.motion.Closed := by
  have hm : w.motion.Joined := joined_motion h
  refine ⟨hm.nodup, fun s hs => ?_⟩
  have hends := hm.ends s hs
  unfold Spring.endpoints at hends
  cases ha : s.a with
  | point p =>
    have := hjoin s hs
    simp [ha, Anchor.literal?] at this
  | node i =>
    simp only [ha, List.mem_cons, List.not_mem_nil, or_false, forall_eq_or_imp,
      forall_eq] at hends
    obtain ⟨⟨b, hb, hbi⟩, b', hb', hbj⟩ := hends
    refine ⟨i, ?_, b'.id, List.mem_map_of_mem hb', rfl, hbj.symm⟩
    rw [← Option.some.inj hbi]
    exact List.mem_map_of_mem hb

theorem advance_momentum (h : w.Sound) (hjoin : ∀ s ∈ w.members, s.a.literal? = none)
    {dt friction : ℝ} (hdt : 0 < dt) {steps : Number ℝ} {n : ℕ}
    (hfriction : w.graph.config.stepping.friction = some friction)
    (hsteps : w.graph.config.stepping.stepsFor dt = .ok (.number steps))
    (hn : steps.times = .ok n) :
    (advance dt).wp (fun o t =>
      (o = .ok () →
        (t.graph.nodes.map Node.velocity).sum =
          (1 - friction * (dt / steps.val)) ^ n • (w.graph.nodes.map Node.velocity).sum ∧
        (t.graph.nodes.map Node.position).sum =
          (w.graph.nodes.map Node.position).sum +
            (dt / steps.val * ∑ k ∈ Icc 1 n, (1 - friction * (dt / steps.val)) ^ k) •
              (w.graph.nodes.map Node.velocity).sum) ∧
      (w.graph.config.stepping.lengthCap.isSome → steps.val ≠ 0 →
        w.Numeric → o = .ok ())) w := by
  refine (advance_motion h dt).mono fun o t hmotion => ⟨?_, fun hcap hzero hnum => ?_⟩
  · rintro rfl
    have := (closed_motion h hjoin).advance hdt hfriction hsteps hn hmotion.symm
    rwa [momentum_motion, momentum_motion, places_motion, places_motion] at this
  · have hlength : dt / steps.val ≠ 0 := div_ne_zero hdt.ne' hzero
    have hsplits : w.graph.config.stepping.Splits dt steps n (dt / steps.val) :=
      ⟨hsteps, hn, divide_ok (isZero_eq_false hzero), isZero_eq_false hlength,
        Option.isSome_iff_exists.1 hcap, _, hfriction⟩
    obtain ⟨m, hm⟩ := (joined_motion h).exists_advance hnum hsplits
    obtain ⟨_, hok, -⟩ := map_eq_ok_iff.1 (hmotion.trans hm)
    exact hok

end Scene

namespace Bench

/-- After every run that leaves springs between nodes only, a frame of `n` sub-steps of length `h`
multiplies the sum of the velocities by `1 - friction * h` once for each sub-step, and carries the
sum of the places along with it, sub-step by sub-step. If the length cap is a number, the count of
the sub-steps is not zero and the springs' constants are numbers, such a frame does not fail. A
count below zero is no sub-step. -/
theorem momentum_after_run (c : Config ℝ) (springs : Arena (Spring ℝ))
    (quantities : Arena (Quantity ℝ)) (ops : List (Op ℝ)) (dt friction : ℝ) (steps : Number ℝ)
    (n : ℕ) :
    let w := (after ops (empty c springs quantities)).toScene
    let t := (Scene.advance dt w).state
    let stepping := w.graph.config.stepping
    let h := dt / steps.val
    (∀ s ∈ w.members, s.a.literal? = none) → 0 < dt → stepping.friction = some friction →
      stepping.stepsFor dt = .ok (.number steps) → steps.times = .ok n →
      (0 ≤ steps.val → steps.val = n) ∧
      ((Scene.advance dt w).outcome = .ok () →
        (t.graph.nodes.map Node.velocity).sum =
          (1 - friction * h) ^ n • (w.graph.nodes.map Node.velocity).sum ∧
        (t.graph.nodes.map Node.position).sum =
          (w.graph.nodes.map Node.position).sum +
            (h * ∑ k ∈ Icc 1 n, (1 - friction * h) ^ k) •
              (w.graph.nodes.map Node.velocity).sum) ∧
      (stepping.lengthCap.isSome → steps.val ≠ 0 → w.Numeric →
        (Scene.advance dt w).outcome = .ok ()) := by
  intro w t stepping h hjoin hdt hfriction hsteps hn
  have hw : w.Sound := (sound_after c springs quantities ops).scene
  exact ⟨Number.val_eq_of_times hn, Scene.advance_momentum hw hjoin hdt hfriction hsteps hn⟩

/-- Nodes at `(0, 0)` and `(1, 0)`, and a spring between them that is to be twice as long. -/
noncomputable def stretchedRun : List (Op ℝ) :=
  let node (x y : ℝ) : Op ℝ := .sketch (.scene (.addNode (.ofPoint ⟨x, y⟩)))
  [node 0 0, node 1 0,
    .sketch (.scene (.tie (some 0) (some 1) (some (.real 2.0)) (some (.real 2.0))))]

theorem momentum_stretched :
    let w := (after stretchedRun (empty default {} {} : Bench ℝ)).toScene
    let t := (Scene.advance 1 w).state
    (∀ s ∈ w.members, s.a.literal? = none) ∧ w.Numeric ∧
      (Scene.advance 1 w).outcome = .ok () ∧
      (t.graph.nodes.map Node.velocity).sum = 0 ∧
      (t.graph.nodes.map Node.position).sum = ⟨1, 0⟩ := by
  intro w t
  have hmembers : w.members = [w.spring 0] := rfl
  have hjoin : ∀ s ∈ w.members, s.a.literal? = none := by
    rw [hmembers]
    exact List.forall_mem_singleton.2 rfl
  have hnum : w.Numeric := Scene.numeric_of_members_eq hmembers rfl
  have hvelocity : (w.graph.nodes.map Node.velocity).sum = 0 := by
    show Point.zero + (Point.zero + 0) = (0 : Point ℝ)
    simp [Point.zero_def]
  have hposition : (w.graph.nodes.map Node.position).sum = ⟨1, 0⟩ := by
    show (⟨0, 0⟩ : Point ℝ) + (⟨1, 0⟩ + 0) = ⟨1, 0⟩
    simp [Point.ext_iff]
  obtain ⟨-, hsums, hreturns⟩ := momentum_after_run default {} {} stretchedRun 1 5.0 (.whole 25) 25
    hjoin one_pos rfl rfl rfl
  have hmany : ((25 : Int) : ℝ) ≠ 0 := by norm_num
  have hok := hreturns rfl hmany hnum
  obtain ⟨hv, hp⟩ := hsums hok
  refine ⟨hjoin, hnum, hok, ?_, ?_⟩
  · rw [hv, hvelocity, smul_zero]
  · rw [hp, hvelocity, hposition, smul_zero, add_zero]

end Bench

end Linkage
