import Linkage.Proofs.Slack
import Linkage.Proofs.Renaming

/-!
# Springs at the start of a frame

A frame begins with displacements that count as unchanging. So in its first sub-step springs are not
damped, wherever nodes, points and bounds have been put since the last frame: the force of a spring
is its stiffness times the displacement (`Scene.advanceTo_unbraked`).

In frames of one sub-step each there is no other. Two scenes that differ in nothing but damping go
through them alike (`Scene.Redamped.after`); how their springs were strained before does not matter.
-/

namespace Linkage

open Act Scalar

namespace Spring

section

variable {K : Type}

/-- The same spring but for its damping and for how it is strained. -/
def Redamped (s t : Spring K) : Prop :=
  ∃ damping strain, t =
    { s with
      constants := s.constants.map fun c => { c with damping := damping }, strain := strain }

/-- The same spring but for its damping, and strained alike. -/
def Detuned (s t : Spring K) : Prop :=
  ∃ damping, t = { s with constants := s.constants.map fun c => { c with damping := damping } }

variable {s t s' t' : Spring K}

theorem Detuned.redamped (h : Detuned s t) : Redamped s t := by
  obtain ⟨damping, rfl⟩ := h
  exact ⟨damping, s.strain, rfl⟩

namespace Redamped

theorem contains (h : Redamped s t) (k : Key) : t.contains k = s.contains k := by
  obtain ⟨damping, strain, rfl⟩ := h
  rfl

theorem expired (h : Redamped s t) : t.expired = s.expired := by
  obtain ⟨damping, strain, rfl⟩ := h
  rfl

theorem id (h : Redamped s t) : t.id = s.id := by
  obtain ⟨damping, strain, rfl⟩ := h
  rfl

/-- A change of the strain is not seen. -/
theorem congr (h : Redamped s t) (hs : s' = { s with strain := s'.strain })
    (ht : t' = { t with strain := t'.strain }) : Redamped s' t' := by
  obtain ⟨damping, strain, rfl⟩ := h
  exact ⟨damping, t'.strain, by rw [ht, hs]⟩

end Redamped

variable [Scalar K]

theorem Detuned.forceAt (h : Detuned s t) (k : Key) : t.forceAt k = s.forceAt k := by
  obtain ⟨damping, rfl⟩ := h
  rfl

/-- The force on endpoint B of a spring that is not damped, before a rail has turned it. -/
def elastic (s : Spring K) (a b : Point K) (cap : K) : Point K :=
  if Point.distance a b < tiny then Point.zero
  else (-s.stiffness * s.cappedAt (Point.distance a b) cap) * ((b - a) / Point.distance a b)

/-- `s'` is the spring `s` with its ends at `a` and `b`, displaced and not damped. -/
structure Unbraked (cap : K) (a b : Point K) (s s' : Spring K) : Prop where
  setting : s' = { s with strain := s'.strain }
  rate : s'.strain.rate = 0.0
  displacement : s'.strain.displacement = s.cappedAt (Point.distance a b) cap
  force : s'.strain.force * s'.strain.direction = s.elastic a b cap
  pull : ¬ (s.kind = .rail ∧ s.atRailEnd = false) → s'.forceAt s.b = s.elastic a b cap

end

variable {s t s' : Spring ℝ} {a b : Point ℝ} {h cap : ℝ}

/-- Ends that stay where they are make no difference to a displacement. -/
theorem strained_unmoved (hs : s.strain.previous = s.cappedAt (Point.distance a b) cap) :
    s.strained a b h cap = (divide 0 h).bind fun _ =>
      loaded { s with strain :=
        { s.strain with
          displacement := s.cappedAt (Point.distance a b) cap
          previous := s.cappedAt (Point.distance a b) cap
          rate := 0 } } a b := by
  have hrate : divide 0 h = .ok (0 / h) ∨ ∃ e : Failure ℝ, divide 0 h = .error e := by
    unfold divide
    split
    · exact .inr ⟨_, rfl⟩
    · exact .inl rfl
  unfold strained displaced
  rw [hs]
  simp only [sub_self]
  rcases hrate with e | ⟨_, e⟩
  · rw [e, zero_div]
    rfl
  · rw [e]
    rfl

theorem force_strainFor_zero (s : Spring ℝ) (a b : Point ℝ) (cap : ℝ) :
    let x := s.strainFor a b (s.cappedAt (Point.distance a b) cap) 0
    x.force * x.direction = s.elastic a b cap := by
  unfold strainFor elastic
  split
  · exact Point.smul_zero _
  · next htiny =>
    have hforce : -s.damping * 0 - s.stiffness * s.cappedAt (Point.distance a b) cap =
        -s.stiffness * s.cappedAt (Point.distance a b) cap := by ring
    simp only [hforce, Point.ofAngle_angle (not_lt.1 htiny)]

theorem unbraked_of_strained (e : (s.relaxed a b cap).strained a b h cap = .ok s') :
    Unbraked cap a b s s' := by
  obtain ⟨rate, hrate, -, e⟩ := strained_eq_ok_iff.1 e
  have hprevious : (s.relaxed a b cap).strain.previous =
      (s.relaxed a b cap).cappedAt (Point.distance a b) cap := rfl
  rw [hprevious, sub_self] at hrate
  obtain ⟨-, hzero⟩ := divide_eq_ok_iff.1 hrate
  rw [zero_div] at hzero
  subst hzero e
  have hforce := s.force_strainFor_zero a b cap
  refine ⟨rfl, ?rate, ?displacement, hforce, fun hfree => ?pull⟩
  case rate =>
    show (s.strainFor a b _ 0).rate = 0.0
    unfold strainFor
    split <;> exact zero_eq.symm
  case displacement =>
    show (s.strainFor a b _ 0).displacement = _
    unfold strainFor
    split <;> rfl
  case pull => exact (if_pos rfl).trans ((if_neg hfree).trans hforce)

theorem Redamped.cappedAt (h : Redamped s t) (l cap : ℝ) : t.cappedAt l cap = s.cappedAt l cap := by
  obtain ⟨damping, strain, rfl⟩ := h
  rfl

/-- Springs that differ in damping are strained alike where their ends stay where they are. -/
theorem Redamped.strained (hst : Redamped s t)
    (hs : s.strain.previous = s.cappedAt (Point.distance a b) cap)
    (ht : t.strain.previous = t.cappedAt (Point.distance a b) cap) :
    Agree Detuned (s.strained a b h cap) (t.strained a b h cap) := by
  rw [strained_unmoved hs, strained_unmoved ht, hst.cappedAt]
  generalize s.cappedAt (Point.distance a b) cap = d
  obtain ⟨damping, strain, rfl⟩ := hst
  refine Agree.bind_same fun _ => ?_
  by_cases htiny : Point.distance a b < tiny
  · simp only [loaded, if_pos htiny]
    exact ⟨damping, rfl⟩
  · simp only [loaded, if_neg htiny]
    cases hc : s.constants with
    | none => exact rfl
    | some c =>
      have hforce : -damping * 0 - c.stiffness * d = -c.damping * 0 - c.stiffness * d := by ring
      refine ⟨damping, ?_⟩
      simp only [hforce]

end Spring

/-! ### The first sub-step -/

namespace Scene

variable {w t : Scene ℝ} {r : Ref} {dt : ℝ}

theorem advanceTo_unbraked (hw : w.Sound) (hok : (advanceTo dt 0 w).outcome = .ok ())
    (hr : r ∈ w.graph.listed) :
    ∃ cap a b, w.graph.config.stepping.lengthCap = some cap ∧
      w.ends (w.spring r) = .ok (a, b) ∧
      Spring.Unbraked cap a b (w.spring r) ((advanceTo dt 0 w).state.spring r) := by
  obtain ⟨h, hh⟩ := exists_lengthFor_of_advanceTo hok
  obtain ⟨v, hv, hl⟩ := advanceTo_zero_spec hw hok hh
  have hrv : r ∈ v.graph.listed := hv.idle.strained.alike.listed ▸ hr
  obtain ⟨p, hp, e⟩ := hv.spring r hr
  obtain ⟨p', hp', e'⟩ := hl.spring r hrv
  -- the springs look twice, and nothing moves in between
  have hends : w.ends (w.spring r) = .ok p := (hv.idle.ends r).symm.trans hp
  have hends' : w.ends (w.spring r) = .ok p' :=
    (hv.idle.ends r).symm.trans ((hl.idle.ends r).symm.trans hp')
  cases hends.symm.trans hends'
  obtain ⟨cap, hcap, e⟩ := Spring.relaxing_eq_ok_iff.1 e
  obtain ⟨cap', hcap', e'⟩ := Spring.straining_eq_ok_iff.1 e'
  cases hcap.symm.trans hcap'
  rw [← e] at e'
  exact ⟨cap, p.1, p.2, hcap, hends, Spring.unbraked_of_strained e'⟩

end Scene

/-! ### Frames of one sub-step -/

/-- A frame of this length has one sub-step. -/
def Stepping.Undivided {K : Type} [Scalar K] (c : Stepping K) (dt : K) : Prop :=
  ∃ steps, c.stepsFor dt = .ok (.number steps) ∧ steps.times = .ok 1

namespace Motion

/-- The same bodies, and springs that correspond one by one, in the way that `R` says. -/
structure Beside {K : Type} (R : Spring K → Spring K → Prop) (m m' : Motion K) : Prop where
  bodies : m'.bodies = m.bodies
  springs : List.Forall₂ R m.springs m'.springs

variable {m m' : Motion ℝ} {R Q : Spring ℝ → Spring ℝ → Prop} {s t : Spring ℝ} {c : Stepping ℝ}
  {dt h friction : ℝ}

theorem ends_congr (hb : m'.bodies = m.bodies) (s : Spring ℝ) : m'.ends s = m.ends s := by
  unfold ends position
  rw [hb]

theorem ends_redamped (hst : s.Redamped t) (m : Motion ℝ) : m.ends t = m.ends s := by
  obtain ⟨damping, strain, rfl⟩ := hst
  rfl

theorem Beside.look {f : Spring ℝ → Point ℝ → Point ℝ → Except (Failure ℝ) (Spring ℝ)}
    (hmm : m.Beside R m') (hR : ∀ s t, R s t → s.Redamped t)
    (hQ : ∀ s t p, R s t → m.ends s = .ok p → m.ends t = .ok p →
      Agree Q (f s p.1 p.2) (f t p.1 p.2)) :
    Agree (Beside Q) (m.look f) (m'.look f) := by
  refine Agree.bind (Agree.mapM hmm.springs fun s t hst => ?_)
    fun ss ts _ _ hsts => (⟨hmm.bodies, hsts⟩ : Beside Q ⟨ss, m.bodies⟩ ⟨ts, m'.bodies⟩)
  have hends : m.ends t = m.ends s := ends_redamped (hR s t hst) m
  rw [ends_congr hmm.bodies, hends]
  cases hp : m.ends s with
  | error e => exact rfl
  | ok p => exact hQ s t p hst hp (hends.trans hp)

/-- The displacement that the spring starts from is the one for the ends where they are. -/
def Unmoved (m : Motion ℝ) (cap : Option ℝ) (s : Spring ℝ) : Prop :=
  ∀ p, m.ends s = .ok p → ∀ l, cap = some l →
    s.strain.previous = s.cappedAt (Point.distance p.1 p.2) l

/-- Springs that differ in damping, both unmoved. -/
def Primed (m : Motion ℝ) (cap : Option ℝ) (s t : Spring ℝ) : Prop :=
  s.Redamped t ∧ m.Unmoved cap s ∧ m.Unmoved cap t

theorem Primed.congr {cap : Option ℝ} (h : m.Primed cap s t) (hb : m'.bodies = m.bodies) :
    m'.Primed cap s t := by
  unfold Primed Unmoved
  simp only [ends_congr hb]
  exact h

theorem Beside.relax (hmm : m.Beside Spring.Redamped m') (cap : Option ℝ) :
    Agree (Beside (m.Primed cap)) (m.look (Spring.relaxing cap))
      (m'.look (Spring.relaxing cap)) := by
  refine hmm.look (fun _ _ h => h) fun s t p hst hs ht => ?_
  cases cap with
  | none => exact rfl
  | some l =>
    refine ⟨hst.congr rfl rfl, fun p' hp' l' hl' => ?_, fun p' hp' l' hl' => ?_⟩
    · cases hs.symm.trans hp'
      cases hl'
      rfl
    · cases ht.symm.trans hp'
      cases hl'
      rfl

theorem Beside.strain {cap : Option ℝ} (hmm : m.Beside (m.Primed cap) m') (h : ℝ) :
    Agree (Beside Spring.Detuned) (m.look (Spring.straining h cap))
      (m'.look (Spring.straining h cap)) := by
  refine hmm.look (fun _ _ h => h.1) fun s t p hst hs ht => ?_
  obtain ⟨hst, hsu, htu⟩ := hst
  cases cap with
  | none => exact rfl
  | some l => exact hst.strained (hsu p hs l rfl) (htu p ht l rfl)

theorem Beside.force_eq (hmm : m.Beside Spring.Detuned m') (friction : ℝ) (b : Body ℝ) :
    m'.force friction b = m.force friction b := by
  have hforces : m'.springs.map (·.forceAt (some b.id)) = m.springs.map (·.forceAt (some b.id)) :=
    map_eq_of_forall₂ hmm.springs fun s t hst => hst.forceAt _
  rw [Motion.force_eq, Motion.force_eq, hforces]

theorem Beside.move (hmm : m.Beside Spring.Detuned m') (friction h : ℝ) :
    (m.move friction h).Beside Spring.Detuned (m'.move friction h) := by
  refine ⟨?_, hmm.springs⟩
  unfold Motion.move
  simp only [hmm.bodies, hmm.force_eq]

theorem Beside.sweep (hmm : m.Beside Spring.Detuned m') : m.sweep.Beside Spring.Detuned m'.sweep :=
  ⟨hmm.bodies,
    List.rel_filter (fun s t hst => by simp only [hst.redamped.expired]) hmm.springs⟩

theorem Beside.substep (hmm : m.Beside (m.Primed c.lengthCap) m') (h : ℝ) :
    Agree (Beside Spring.Detuned) (m.substep c h) (m'.substep c h) := by
  refine (hmm.strain h).bind fun u u' _ _ huu => ?_
  rw [huu.bodies]
  split
  · exact huu
  · cases asNumber c.friction with
    | error e => exact rfl
    | ok friction => exact huu.move friction h

/-- A frame of one sub-step does the same, whatever the dampings are. -/
theorem Beside.advance (hmm : m.Beside Spring.Redamped m') (hdt : ¬ dt ≤ 0.0)
    (hc : c.Undivided dt) :
    Agree (Beside Spring.Detuned) (m.advance c dt) (m'.advance c dt) := by
  obtain ⟨steps, hsteps, hn⟩ := hc
  rw [Motion.advance, Motion.advance, if_neg hdt, if_neg hdt, hsteps]
  show Agree _ ((divide dt steps.val).bind _) ((divide dt steps.val).bind _)
  refine Agree.bind_same fun h => (hmm.relax c.lengthCap).bind fun u u' hu _ huu => ?_
  rw [hn]
  show Agree _ (((u.substep c h).bind .ok).map Motion.sweep)
    (((u'.substep c h).bind .ok).map Motion.sweep)
  have hprimed : u.Beside (u.Primed c.lengthCap) u' :=
    ⟨huu.bodies, huu.springs.imp fun _ _ h => h.congr (look_eq_ok_iff.1 hu).1⟩
  refine Agree.map (P := Beside Spring.Detuned) ?_ fun _ _ hvv => hvv.sweep
  exact (hprimed.substep h).bind fun _ _ _ _ hvv => hvv

end Motion

namespace Scene

variable {w t : Scene ℝ} {dt : ℝ}

/-- The two scenes differ in nothing that a frame is about but the dampings of springs, and how
springs are strained. -/
structure Redamped (w t : Scene ℝ) : Prop where
  stepping : t.graph.config.stepping = w.graph.config.stepping
  nodes : t.graph.nodes = w.graph.nodes
  springs : List.Forall₂ Spring.Redamped w.members t.members
  connections : t.graph.connections = w.graph.connections
  nextNode : t.graph.nextNode = w.graph.nextNode
  nextSpring : t.graph.nextSpring = w.graph.nextSpring

theorem Redamped.beside (h : Redamped w t) : w.motion.Beside Spring.Redamped t.motion :=
  ⟨congrArg (List.map Node.body) h.nodes, h.springs⟩

/-- What a node keeps of springs, read off the springs themselves. -/
theorem ids_touching (w : Scene ℝ) (k : Key) :
    ((w.touching k).filterMap fun r => (w.spring r).id) =
      ((w.members.filter (·.contains k)).map Spring.id).filterMap id := by
  unfold touching members
  rw [List.filter_map, List.map_map, List.filterMap_map]
  rfl

/-- Nodes in the same places keep the same ids where springs differ in damping and strain. -/
theorem nodes_eq_of_beside (hw : w.Sound) (ht : t.Sound)
    (h : w.motion.Beside Spring.Redamped t.motion) : t.graph.nodes = w.graph.nodes := by
  have hplaces : (t.graph.nodes.map fun n => { n with springIds := [] }) =
      w.graph.nodes.map fun n => { n with springIds := [] } := by
    have hbodies := congrArg
      (List.map fun b : Body ℝ => (⟨b.id, b.position, b.velocity, []⟩ : Node ℝ)) h.bodies
    rwa [motion, motion, List.map_map, List.map_map] at hbodies
  have hids : ∀ k, ((t.touching k).filterMap fun r => (t.spring r).id) =
      (w.touching k).filterMap fun r => (w.spring r).id := fun k => by
    have hat : List.Forall₂ Spring.Redamped (w.members.filter (·.contains k))
        (t.members.filter (·.contains k)) :=
      List.rel_filter (fun s t hst => by simp only [hst.contains]) h.springs
    rw [ids_touching, ids_touching, map_eq_of_forall₂ hat fun _ _ hst => hst.id]
  rw [hw.nodes_eq, ht.nodes_eq, hplaces]
  simp only [hids]

/-- A frame leaves everything but springs and nodes alone. -/
theorem Redamped.of_beside {w' t' : Scene ℝ} (h : Redamped w t)
    (hw : w'.graph = { w.graph with nodes := w'.graph.nodes, listed := w'.graph.listed })
    (ht : t'.graph = { t.graph with nodes := t'.graph.nodes, listed := t'.graph.listed })
    (hws : w'.Sound) (hts : t'.Sound) (hb : w'.motion.Beside Spring.Redamped t'.motion) :
    Redamped w' t' where
  stepping := by
    rw [hw, ht]
    exact h.stepping
  nodes := nodes_eq_of_beside hws hts hb
  springs := hb.springs
  connections := by
    rw [hw, ht]
    exact h.connections
  nextNode := by
    rw [hw, ht]
    exact h.nextNode
  nextSpring := by
    rw [hw, ht]
    exact h.nextSpring

/-- Frames of one sub-step end alike on both scenes, and strain the springs alike. -/
theorem Redamped.advance (h : Redamped w t) (hw : w.Sound) (ht : t.Sound)
    (hdt : dt ≤ 0.0 ∨ w.graph.config.stepping.Undivided dt) :
    (Scene.advance dt t).outcome = (Scene.advance dt w).outcome ∧
      Redamped (Scene.advance dt w).state (Scene.advance dt t).state ∧
      (¬ dt ≤ 0.0 → (Scene.advance dt w).outcome = .ok () →
        List.Forall₂ Spring.Detuned (Scene.advance dt w).state.members
          (Scene.advance dt t).state.members) := by
  by_cases hle : dt ≤ 0.0
  · rw [advance_nothing hle, advance_nothing hle]
    exact ⟨rfl, h, fun hne => absurd hle hne⟩
  have hagree := h.beside.advance hle (hdt.resolve_left hle)
  obtain ⟨hsame, hbeside⟩ := agree_advance hw ht (by rw [h.stepping]; exact hagree)
  refine ⟨hsame, ?_, fun _ hok => (hbeside hok).springs⟩
  refine h.of_beside (advance_graph hw dt).1 (advance_graph ht dt).1 (advance_spec hw dt).1.sound
    (advance_spec ht dt).1.sound ?_
  by_cases hok : (Scene.advance dt w).outcome = .ok ()
  · obtain ⟨hbodies, hsprings⟩ := hbeside hok
    exact ⟨hbodies, hsprings.imp fun _ _ hst => hst.redamped⟩
  · -- the one sub-step has failed
    obtain ⟨steps, hsteps, hone⟩ := hdt.resolve_left hle
    have hcount : ∀ steps' n, w.graph.config.stepping.stepsFor dt = .ok (.number steps') →
        steps'.times = .ok n → n ≤ 1 := by
      intro steps' n hsteps' hn
      cases hsteps.symm.trans hsteps'
      cases hone.symm.trans hn
      exact Nat.le_refl 1
    have hu := advance_idle hw hcount hok
    have hv := advance_idle ht (h.stepping ▸ hcount) (hsame ▸ hok)
    refine ⟨by rw [hu.bodies, hv.bodies]; exact h.beside.bodies, ?_⟩
    exact forall₂_change h.springs hu.members hv.members fun _ _ _ _ _ hst hs ht =>
      hst.congr hs ht

theorem Redamped.after (h : Redamped w t) (hw : w.Sound) (ht : t.Sound) {dts : List ℝ}
    (hdts : ∀ dt ∈ dts, dt ≤ 0.0 ∨ w.graph.config.stepping.Undivided dt) :
    Redamped (Scene.after (dts.map .advance) w) (Scene.after (dts.map .advance) t) := by
  induction dts generalizing w t with
  | nil => exact h
  | cons dt dts ih =>
    obtain ⟨hdt, hdts⟩ := List.forall_mem_cons.1 hdts
    obtain ⟨-, hnext, -⟩ := h.advance hw ht hdt
    have hconfig : (Scene.advance dt w).state.graph.config = w.graph.config := by
      rw [(advance_graph hw dt).1]
    refine ih hnext (advance_spec hw dt).1.sound (advance_spec ht dt).1.sound fun d hd => ?_
    show d ≤ 0.0 ∨ (Scene.advance dt w).state.graph.config.stepping.Undivided d
    rw [hconfig]
    exact hdts d hd

end Scene

namespace Bench

/-- After every run, no spring is damped in the first sub-step of a frame: its displacement counts
as unchanging, and what draws at its endpoint B is the stiffness alone. A frame of positive length
that has sub-steps and succeeds passes through its first one.

Two runs may lead to scenes that differ in damping only. Frames that have one sub-step each keep
them so: they move all nodes alike, fail alike, and where they succeed strain all springs alike. -/
theorem unbraked_after_run (c : Config ℝ) (springs : Arena (Spring ℝ))
    (quantities : Arena (Quantity ℝ)) (ops : List (Op ℝ)) :
    let w := (after ops (empty c springs quantities)).toScene
    (∀ dt, (Scene.advanceTo dt 0 w).outcome = .ok () → ∀ r ∈ w.graph.listed, ∃ cap a b,
        c.stepping.lengthCap = some cap ∧ w.ends (w.spring r) = .ok (a, b) ∧
        Spring.Unbraked cap a b (w.spring r) ((Scene.advanceTo dt 0 w).state.spring r)) ∧
      (∀ dt steps n, 0 < dt → c.stepping.stepsFor dt = .ok (.number steps) →
        steps.times = .ok n → 0 < n → (Scene.advance dt w).outcome = .ok () →
          (Scene.advanceTo dt 0 w).outcome = .ok ()) ∧
      ∀ (c' : Config ℝ) (springs' : Arena (Spring ℝ)) (quantities' : Arena (Quantity ℝ))
        (ops' : List (Op ℝ)),
        let t := (after ops' (empty c' springs' quantities')).toScene
        Scene.Redamped w t → ∀ dts : List ℝ,
          (∀ dt ∈ dts, dt ≤ 0.0 ∨ c.stepping.Undivided dt) →
          let w' := Scene.after (dts.map .advance) w
          let t' := Scene.after (dts.map .advance) t
          Scene.Redamped w' t' ∧ ∀ dt, dt ≤ 0.0 ∨ c.stepping.Undivided dt →
            (Scene.advance dt t').outcome = (Scene.advance dt w').outcome ∧
              (¬ dt ≤ 0.0 → (Scene.advance dt w').outcome = .ok () →
                List.Forall₂ Spring.Detuned (Scene.advance dt w').state.members
                  (Scene.advance dt t').state.members) := by
  intro w
  have hw : w.Sound := (sound_after c springs quantities ops).scene
  have hconfig : w.graph.config = c := config_after c springs quantities ops
  rw [← hconfig]
  refine ⟨fun dt hok r hr => Scene.advanceTo_unbraked hw hok hr, ?passes, ?alike⟩
  case passes =>
    intro dt steps n hdt hsteps hn hpos hok
    exact Scene.advanceTo_ok_of_advance (not_le_zero hdt) hsteps hn hok hpos
  case alike =>
    intro c' springs' quantities' ops' t h dts hdts w' t'
    have ht : t.Sound := (sound_after c' springs' quantities' ops').scene
    have hw' := Scene.after_onward hw (dts.map .advance)
    have ht' := Scene.after_onward ht (dts.map .advance)
    have hend : Scene.Redamped w' t' := h.after hw ht hdts
    refine ⟨hend, fun dt hdt => ?_⟩
    rw [← hw'.later.config] at hdt
    obtain ⟨hsame, -, hstrain⟩ := hend.advance hw'.sound ht'.sound hdt
    exact ⟨hsame, hstrain⟩

/-- One sub-step a frame, and the same constants for all springs. -/
noncomputable def undivided (damping : ℝ) : Config ℝ :=
  { (default : Config ℝ) with
    constants := fun _ => some ⟨250.0, damping⟩
    stepping := { Stepping.standard with substeps := .number (.whole 1) } }

theorem undivided_splits (damping : ℝ) :
    (undivided damping).stepping.Splits 0.1 (.whole 1) 1 (0.1 / (1 : Int)) := by
  have hone : Scalar.isZero ((1 : Int) : ℝ) = false := isZero_eq_false (by norm_num)
  have hlength : Scalar.isZero (0.1 / (1 : Int) : ℝ) = false := isZero_eq_false (by norm_num)
  exact ⟨rfl, rfl, divide_ok hone, hlength, ⟨_, rfl⟩, ⟨_, rfl⟩⟩

/-- A leash that is too long is drawn in, whether or not it is damped. -/
theorem unbraked_leash :
    let w := (after (leashRun 3) (empty (undivided 31.6) {} {})).toScene
    let t := (after (leashRun 3) (empty (undivided 0) {} {})).toScene
    let frames : List (Scene.Op ℝ) := [0.1, 0.1].map .advance
    (Scene.advanceTo 0.1 0 w).outcome = .ok () ∧ 0 ∈ w.graph.listed ∧
      ((Scene.advanceTo 0.1 0 w).state.spring 0).strain.rate = 0.0 ∧
      Scene.Redamped w t ∧ (t.spring 0).damping ≠ (w.spring 0).damping ∧
      (Scene.after frames t).graph.nodes = (Scene.after frames w).graph.nodes := by
  intro w t frames
  have hw : w.Sound := (sound_after (undivided 31.6) {} {} (leashRun 3)).scene
  obtain ⟨hfirst, hpasses, halike⟩ := unbraked_after_run (undivided 31.6) {} {} (leashRun 3)
  have hnum : w.Numeric :=
    Scene.numeric_of_members_eq (show w.members = [w.spring 0] from rfl) rfl
  have hadvance : (Scene.advance 0.1 w).outcome = .ok () :=
    Scene.advance_ok hw hnum (undivided_splits 31.6)
  have hok : (Scene.advanceTo 0.1 0 w).outcome = .ok () :=
    hpasses 0.1 (.whole 1) 1 (by norm_num) rfl rfl one_pos hadvance
  have hlisted : w.graph.listed = [0] := rfl
  have hmem : 0 ∈ w.graph.listed := by simp [hlisted]
  obtain ⟨_, _, _, -, -, hunbraked⟩ := hfirst 0.1 hok 0 hmem
  have hredamped : Scene.Redamped w t :=
    ⟨rfl, rfl, .cons ⟨0, Strain.none, rfl⟩ .nil, rfl, rfl, rfl⟩
  have hdts : ∀ dt ∈ [(0.1 : ℝ), 0.1], dt ≤ 0.0 ∨ (undivided 31.6).stepping.Undivided dt :=
    fun dt _ => .inr ⟨_, rfl, rfl⟩
  obtain ⟨hend, -⟩ := halike (undivided 0) {} {} (leashRun 3) hredamped [0.1, 0.1] hdts
  have hdamping : (t.spring 0).damping ≠ (w.spring 0).damping := by
    show (0 : ℝ) ≠ 31.6
    norm_num
  exact ⟨hok, hmem, hunbraked.rate, hredamped, hdamping, hend.nodes⟩

end Bench

end Linkage
