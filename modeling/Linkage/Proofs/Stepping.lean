import Linkage.Proofs.Real
import Linkage.Proofs.Failing

/-!
# Frames that succeed

A frame needs a count of sub-steps that are not too short to be told from nothing, a cap for the
springs and a friction for the nodes; `Stepping.Splits` says that the settings have them. Then it
does not fail, wherever the nodes are, if the constants of the springs are numbers
(`Scene.advance_ok`). A count that is not whole is found out when the springs are relaxed already
(`Motion.Joined.advance_uncounted`).
-/

namespace Linkage

open Act

variable {K : Type} [Scalar K] {c : Stepping K} {dt h : K} {steps : Number K} {n : Nat}

/-- A frame of length `dt` is split into `n` sub-steps of length `h`, and nothing that is needed in
it is left out of the settings. -/
structure Stepping.Splits (c : Stepping K) (dt : K) (steps : Number K) (n : Nat) (h : K) :
    Prop where
  count : c.stepsFor dt = .ok (.number steps)
  times : steps.times = .ok n
  length : divide dt steps.val = .ok h
  length_ne : Scalar.isZero h = false
  cap : ∃ cap, c.lengthCap = some cap
  friction : ∃ friction, c.friction = some friction

theorem Stepping.stepsFor_fixed (hc : c.policy ≠ .maxDuration) :
    c.stepsFor dt = .ok c.substeps := by
  unfold stepsFor
  split
  · next h => exact absurd h hc
  · rfl

theorem divide_ok {x y : K} (hy : Scalar.isZero y = false) : divide x y = .ok (x / y) := by
  rw [divide, hy, if_neg Bool.false_ne_true]

theorem Stepping.splits_standard :
    (standard : Stepping ℝ).Splits 1 (.whole 25) 25 (1 / (25 : Int)) := by
  have hcount : Scalar.isZero ((25 : Int) : ℝ) = false := Scalar.isZero_eq_false (by norm_num)
  have hlength : Scalar.isZero (1 / (25 : Int) : ℝ) = false :=
    Scalar.isZero_eq_false (by norm_num)
  exact ⟨rfl, rfl, divide_ok hcount, hlength, ⟨_, rfl⟩, ⟨_, rfl⟩⟩

namespace Motion

variable {m u : Motion K}

theorem Joined.exists_relax (hm : m.Joined) (hcap : ∃ cap, c.lengthCap = some cap) :
    ∃ u, m.look (fun s a b => (asNumber c.lengthCap).map (s.relaxed a b)) = .ok u := by
  obtain ⟨cap, hcap⟩ := hcap
  rw [hcap]
  exact hm.look_ok fun s _ a b => ⟨s.relaxed a b cap, rfl⟩

/-- The constants of every spring are numbers. -/
def Numeric (m : Motion K) : Prop := ∀ s ∈ m.springs, s.constants.isSome

omit [Scalar K] in
theorem Numeric.look {f : Spring K → Point K → Point K → Except (Failure K) (Spring K)}
    (hm : m.Numeric) (hf : Scene.StrainOnly f) (e : m.look f = .ok u) : u.Numeric := by
  intro s' hs'
  obtain ⟨s, hs, p, -, hs'⟩ := exists_of_look e hs'
  rw [hf _ _ _ _ hs']
  exact hm s hs

theorem Joined.exists_substep (hm : m.Joined) (hnum : m.Numeric) (hs : c.Splits dt steps n h) :
    ∃ u, m.substep c h = .ok u ∧ u.Numeric := by
  obtain ⟨cap, hcap⟩ := hs.cap
  obtain ⟨friction, hfriction⟩ := hs.friction
  obtain ⟨v, hv⟩ : ∃ v, m.look (fun s a b => (asNumber c.lengthCap).bind (s.strained a b h)) =
      .ok v := by
    rw [hcap]
    exact hm.look_ok fun s hs' a b => ⟨_, Spring.strained_eq_ok_iff.2
      ⟨_, divide_ok hs.length_ne, .inr (hnum s hs'), rfl⟩⟩
  have hvn : v.Numeric := hnum.look (Scene.strainOnly_strained h _) hv
  refine ⟨if v.bodies.isEmpty then v else v.move friction h, bind_eq_ok_iff.2 ⟨v, hv, ?_⟩, ?_⟩
  · rw [hfriction]
    split <;> rfl
  · split <;> exact hvn

theorem Joined.exists_substeps (hm : m.Joined) (hnum : m.Numeric) (hs : c.Splits dt steps n h)
    (k : Nat) : ∃ u, m.substeps c h k = .ok u := by
  induction k generalizing m with
  | zero => exact ⟨m, rfl⟩
  | succ k ih =>
    obtain ⟨u, hu, hun⟩ := hm.exists_substep hnum hs
    obtain ⟨v, hv⟩ := ih (hm.substep hu) hun
    exact ⟨v, bind_eq_ok_iff.2 ⟨u, hu, hv⟩⟩

theorem Joined.exists_advance (hm : m.Joined) (hnum : m.Numeric) (hs : c.Splits dt steps n h) :
    ∃ u, m.advance c dt = .ok u := by
  unfold Motion.advance
  split
  · exact ⟨m, rfl⟩
  obtain ⟨u, hu⟩ := hm.exists_relax hs.cap
  have hrelax := Scene.strainOnly_relaxed c.lengthCap
  obtain ⟨v, hv⟩ := (hm.look hrelax hu).exists_substeps (hnum.look hrelax hu) hs n
  refine ⟨v.sweep, bind_eq_ok_iff.2 ⟨steps, ?_, bind_eq_ok_iff.2 ⟨h, hs.length,
    bind_eq_ok_iff.2 ⟨u, hu, bind_eq_ok_iff.2 ⟨n, hs.times, map_eq_ok_iff.2 ⟨v, hv, rfl⟩⟩⟩⟩⟩⟩
  rw [hs.count]
  rfl

theorem advance_unsplit (hdt : ¬ dt ≤ 0.0) {e : Failure K} (hcount : c.stepsFor dt = .error e) :
    m.advance c dt = .error e := by
  rw [Motion.advance, if_neg hdt, hcount]
  rfl

theorem Joined.advance_uncounted (hm : m.Joined) (hdt : ¬ dt ≤ 0.0) {e : Failure K}
    (hcount : c.stepsFor dt = .ok (.number steps)) (hval : Scalar.isZero steps.val = false)
    (hcap : ∃ cap, c.lengthCap = some cap) (htimes : steps.times = .error e) :
    m.advance c dt = .error e := by
  obtain ⟨u, hu⟩ := hm.exists_relax hcap
  rw [Motion.advance, if_neg hdt, hcount]
  show (divide dt steps.val).bind _ = _
  rw [divide_ok hval]
  show (m.look _).bind _ = _
  rw [hu]
  show steps.times.bind _ = _
  rw [htimes]
  rfl

end Motion

namespace Scene

variable {w : Scene K}

/-- The constants of every listed spring are numbers, as they are under settings with numbers unless
others are listed by hand (`Bench.numeric_after`). -/
def Numeric (w : Scene K) : Prop := ∀ s ∈ w.members, s.constants.isSome

theorem numeric_of_members_eq {s : Spring K} (hw : w.members = [s]) (hs : s.constants.isSome) :
    w.Numeric := by
  unfold Numeric
  rw [hw]
  exact List.forall_mem_singleton.2 hs

theorem advance_ok (hw : w.Sound) (hnum : w.Numeric)
    (hs : w.graph.config.stepping.Splits dt steps n h) : (advance dt w).outcome = .ok () := by
  obtain ⟨u, hu⟩ := (joined_motion hw).exists_advance hnum hs
  obtain ⟨_, hok, -⟩ := map_eq_ok_iff.1 ((advance_motion hw dt).trans hu)
  exact hok

theorem advance_error (hw : w.Sound) {e : Failure K}
    (he : w.motion.advance w.graph.config.stepping dt = .error e) :
    (advance dt w).outcome = .error e := by
  have hmap : (advance dt w).outcome.map _ = _ := (advance_motion hw dt).trans he
  cases ho : (advance dt w).outcome with
  | error e' =>
    rw [ho] at hmap
    cases hmap
    rfl
  | ok _ =>
    rw [ho] at hmap
    cases hmap

end Scene

namespace Sketch

/-- No spring comes, and none loses its constants. -/
theorem refresh_numeric {w : Sketch K} (h : w.Sound) (hnum : w.Numeric) (dt : Option K) :
    (refresh dt).wp (fun _ t => t.Numeric) w := by
  refine (refresh_stages h dt).mono fun o t => ?_
  rintro ⟨u, v, x, y, ⟨hu, -⟩, hv, ⟨hvx, hxy, -⟩, rfl, -⟩ s hs
  obtain ⟨r, hr, rfl⟩ := List.mem_map.1 hs
  have hmem : r ∈ w.graph.listed := by
    have hrv : r ∈ v.graph.listed := hvx.alike.listed ▸ hxy.listed.subset hr
    exact hu.struck.listed.subset (hv.alike.listed ▸ hrv)
  have hset : (v.spring r).constants = (u.spring r).constants := by
    by_cases howned : ∃ i ∈ u.ownedIds u.declared, u.springRef? (some i) = some r
    · obtain ⟨i, hi, hir⟩ := howned
      obtain ⟨q, hq, hqi⟩ := mem_ownedIds.1 hi
      obtain ⟨_, _, -, -, hkeeps⟩ := hv.set i hi r hir q ⟨hq, hqi⟩
      exact hkeeps.constants
    · rw [hv.rest r fun i hi hir => howned ⟨i, hi, hir⟩]
  show (y.spring r).constants.isSome
  rw [hxy.spring, hvx.spring r, hset, hu.struck.spring]
  exact hnum _ (List.mem_map_of_mem hmem)

end Sketch

end Linkage
