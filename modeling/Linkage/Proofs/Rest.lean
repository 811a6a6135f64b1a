import Linkage.Proofs.Faithful
import Linkage.Proofs.Motion
import Linkage.Proofs.Settings

/-!
# Rest

With exact numbers, a scene where all springs are slack and no node moves stays as it is, frame
after frame (`Bench.rest_after_run`). A frame starts with springs that have not been displaced
before; while nothing moves they are not displaced either and exert no force, so nothing moves. What
the quantities ask for depends on the places of the nodes alone, so that it is the same at the next
frame, and springs that are swept were slack.
-/

namespace Linkage

open Act Scalar

theorem divide_eq_ok_iff {x y z : ℝ} : divide x y = .ok z ↔ y ≠ 0 ∧ x / y = z := by
  unfold divide
  by_cases hy : y = 0
  · rw [if_pos (isZero_iff.2 hy)]
    simp [hy]
  · rw [if_neg (mt isZero_iff.1 hy)]
    simp [hy]

namespace Spring

variable {s s' : Spring ℝ} {a b : Point ℝ} {h cap : ℝ} {k : Key}

theorem cappedAt_eq_zero {l : ℝ} (hs : s.displacementAt l = 0) (hc : 0 ≤ cap) :
    s.cappedAt l cap = 0 := by
  unfold cappedAt
  rw [hs]
  exact clamp_of_mem ⟨neg_nonpos.2 hc, hc⟩

theorem relaxed_previous (hs : s.displacementAt (Point.distance a b) = 0) (hc : 0 ≤ cap) :
    (s.relaxed a b cap).strain.previous = 0 :=
  cappedAt_eq_zero hs hc

/-- A slack spring that was slack before exerts no force. -/
theorem strained_slack (hs : s.displacementAt (Point.distance a b) = 0)
    (hp : s.strain.previous = 0) (hc : 0 ≤ cap) (e : s.strained a b h cap = .ok s') :
    s'.strain.previous = 0 ∧ s'.strain.force = 0 := by
  obtain ⟨rate, hrate, -, rfl⟩ := strained_eq_ok_iff.1 e
  rw [cappedAt_eq_zero hs hc, hp] at hrate
  obtain ⟨-, rfl⟩ := divide_eq_ok_iff.1 hrate
  have hzero : ((0 : ℝ) - 0) / h = 0 := by simp
  simp only [strainFor, cappedAt_eq_zero hs hc, hzero]
  split
  · exact ⟨rfl, zero_eq⟩
  · exact ⟨rfl, by ring⟩

theorem pull_eq_zero (hs : s.strain.force = 0) : s.pull = Point.zero := by
  unfold pull
  rw [hs, Point.zero_smul]
  split <;> simp

theorem forceAt_eq_zero (hs : s.strain.force = 0) (k : Key) : s.forceAt k = Point.zero := by
  unfold forceAt
  rw [pull_eq_zero hs]
  split
  · rfl
  · split
    · exact Point.neg_zero
    · rfl

end Spring

namespace Node

variable {n : Node ℝ} {springOf : Id → Option (Spring ℝ)}

theorem netForce_eq_zero (hv : n.velocity = Point.zero)
    (hs : ∀ i s, springOf i = some s → s.strain.force = 0) (friction : ℝ) :
    n.netForce springOf friction = Point.zero := by
  unfold netForce
  rw [hv, Point.smul_zero]
  induction n.springIds with
  | nil => rfl
  | cons i is ih =>
    rw [List.foldl_cons]
    cases e : springOf i with
    | none => exact ih
    | some s =>
      simp only [Spring.forceAt_eq_zero (hs i s e), Point.add_zero]
      exact ih

/-- A node at rest stays where it is if none of its springs exerts a force. -/
theorem moved_eq (hv : n.velocity = Point.zero)
    (hs : ∀ i s, springOf i = some s → s.strain.force = 0) (friction h : ℝ) :
    n.moved springOf friction h = n := by
  unfold moved step
  rw [netForce_eq_zero hv hs]
  simp only [hv, Point.smul_zero, Point.add_zero]
  rw [← hv]

end Node

namespace Scene

variable {w t u : Scene ℝ} {r : Ref} {cap : Option ℝ}

/-- No node moves and no spring is displaced. -/
structure AtRest (w : Scene ℝ) : Prop where
  still : ∀ n ∈ w.graph.nodes, n.velocity = Point.zero
  slack : ∀ r ∈ w.graph.listed, ∃ a b, w.ends (w.spring r) = .ok (a, b) ∧
    (w.spring r).displacementAt (Point.distance a b) = 0

/-- What every listed spring turns into when all of them have looked at their ends. -/
theorem Looks.each {K : Type} [Scalar K] {w : Scene K} {x : Ref → Act K (Scene K) Unit}
    {f : Spring K → Point K → Point K → Except (Failure K) (Spring K)} (hx : Looks x f)
    (h : w.Sound) :
    (Act.forEach x w.graph.listed).wp
      (fun o t => Idle w t ∧ (o = .ok () → ∀ r ∈ w.graph.listed, ∃ p, w.ends (w.spring r) = .ok p ∧
        f (w.spring r) p.1 p.2 = .ok (t.spring r))) w := by
  refine ((hx.forEach h.listed_nodup w h.listed_lt).and (hx.forEach_idle w _)).mono fun o t => ?_
  rintro ⟨⟨-, -, hmap⟩, ht⟩
  refine ⟨ht, ?_⟩
  rintro rfl
  have heach := mapM_eq_ok_iff.1 hmap.symm
  rw [List.forall₂_map_left_iff, List.forall₂_map_right_iff, List.forall₂_same] at heach
  exact fun r hr => bind_eq_ok_iff.1 (heach r hr)

/-! ### Frames of a scene at rest -/

theorem AtRest.idle (h : w.AtRest) (e : Idle w t) : t.AtRest where
  still := e.graph ▸ h.still
  slack r hr := by
    obtain ⟨a, b, hab, hs⟩ := h.slack r (e.graph ▸ hr)
    refine ⟨a, b, (e.ends r).trans hab, ?_⟩
    rw [e.strained.spring r]
    exact hs

/-- No listed spring has been displaced. -/
def Relaxed (w : Scene ℝ) : Prop := ∀ r ∈ w.graph.listed, (w.spring r).strain.previous = 0

theorem relax_rest (hw : w.Sound) (h : w.AtRest) (hc : ∀ c ∈ cap, 0 ≤ c) :
    (relax cap).wp (fun o t => Idle w t ∧ (o = .ok () → t.Relaxed)) w := by
  unfold relax
  rw [wp_bind, wp_read, next_ok]
  refine ((looks_relaxed cap).each hw).mono fun o t => ?_
  rintro ⟨ht, heach⟩
  refine ⟨ht, fun ho r hr => ?_⟩
  rw [ht.graph] at hr
  obtain ⟨a, b, hab, hs⟩ := h.slack r hr
  obtain ⟨p, hp, e⟩ := heach ho r hr
  cases hab.symm.trans hp
  cases hcap : cap with
  | none => simp [hcap, asNumber, Except.map] at e
  | some c =>
    rw [hcap] at e
    rw [← Except.ok.inj e]
    exact Spring.relaxed_previous hs (hc c (by simp [hcap]))

theorem strain_rest (hw : w.Sound) (h : w.AtRest) (hr : w.Relaxed) (hc : ∀ c ∈ cap, 0 ≤ c)
    (dh : ℝ) :
    (strain dh cap).wp
      (fun o t => Idle w t ∧ (o = .ok () → t.Relaxed ∧
        ∀ r ∈ t.graph.listed, (t.spring r).strain.force = 0)) w := by
  unfold strain
  rw [wp_bind, wp_read, next_ok]
  refine ((looks_strained dh cap).each hw).mono fun o t => ?_
  rintro ⟨ht, heach⟩
  refine ⟨ht, fun ho => ?_⟩
  have hslack : ∀ r ∈ t.graph.listed,
      (t.spring r).strain.previous = 0 ∧ (t.spring r).strain.force = 0 := by
    intro r hrt
    rw [ht.graph] at hrt
    obtain ⟨a, b, hab, hs⟩ := h.slack r hrt
    obtain ⟨p, hp, e⟩ := heach ho r hrt
    cases hab.symm.trans hp
    cases hcap : cap with
    | none => simp [hcap, asNumber, Except.bind] at e
    | some c =>
      rw [hcap] at e
      exact Spring.strained_slack hs (hr r hrt) (hc c (by simp [hcap])) e
  exact ⟨fun r hrt => (hslack r hrt).1, fun r hrt => (hslack r hrt).2⟩

theorem move_rest (h : w.AtRest) (hs : ∀ r ∈ w.graph.listed, (w.spring r).strain.force = 0)
    (friction dh : ℝ) : w.move friction dh = w := by
  have hsprings : ∀ i s, w.springOf i = some s → s.strain.force = 0 := by
    intro i s e
    have hmem := List.mem_of_find?_eq_some e
    rw [List.mem_reverse, members, List.mem_map] at hmem
    obtain ⟨r, hr, rfl⟩ := hmem
    exact hs r hr
  unfold move
  rw [mapNodes_congr (g := id) fun n hn => Node.moved_eq (h.still n hn) hsprings friction dh]
  unfold mapNodes
  rw [List.map_id]

theorem substep_rest (hw : w.Sound) (h : w.AtRest) (hr : w.Relaxed) {c : Stepping ℝ}
    (hc : ∀ cap ∈ c.lengthCap, 0 ≤ cap) (dh : ℝ) :
    (substep c dh).wp (fun o t => Idle w t ∧ (o = .ok () → t.Relaxed)) w := by
  unfold substep
  rw [wp_bind]
  refine (strain_rest hw h hr hc dh).mono fun o t => ?_
  rintro ⟨ht, ho⟩
  cases o with
  | error e => exact ⟨ht, fun e => by cases e⟩
  | ok _ =>
    obtain ⟨hrt, hforce⟩ := ho rfl
    simp only [next_ok, wp_bind, wp_read, wp_ite, wp_ofExcept]
    split
    · exact ⟨ht, fun _ => hrt⟩
    · cases asNumber c.friction with
      | error e => exact ⟨ht, fun e => by cases e⟩
      | ok friction =>
        simp only [next_ok, wp_change, move_rest (h.idle ht) hforce]
        exact ⟨ht, fun _ => hrt⟩

/-- A frame does nothing to the nodes, and sweeps. -/
theorem advance_rest (hw : w.Sound) (h : w.AtRest)
    (hc : ∀ cap ∈ w.graph.config.stepping.lengthCap, 0 ≤ cap) (dt : ℝ) :
    (advance dt).wp (fun _ t => Onward w t ∧ ∃ u, Idle w u ∧ Struck u t) w := by
  have onward : ∀ t, Idle w t → Onward w t := fun t ht =>
    (Onward.refl hw).alike ht.strained.alike
  refine advance_keep (I := Idle w) (R := Relaxed) dt (.refl w) ?stop ?relaxes ?steps ?sweeps
  case stop => exact fun t ht => ⟨onward t ht, t, ht, .refl t⟩
  case relaxes => exact relax_rest hw h hc
  case steps =>
    intro dh t ht hr
    refine (substep_rest (onward t ht).sound (h.idle ht) hr hc dh).mono fun o t' => ?_
    exact fun ht' => ⟨ht.trans ht'.1, ht'.2⟩
  case sweeps =>
    intro t ht _
    refine (sweep_spec (onward t ht).sound).mono fun o v => ?_
    rintro ⟨-, hv, hst, -⟩
    exact ⟨(onward t ht).trans hv, t, ht, hst⟩

theorem AtRest.struck (h : w.AtRest) (e : Struck w t) : t.AtRest where
  still n hn := by
    have hmem : n.body ∈ t.graph.nodes.map Node.body := List.mem_map_of_mem hn
    rw [e.bodies, List.mem_map] at hmem
    obtain ⟨m, hm, hmn⟩ := hmem
    have hv : m.velocity = n.velocity := congrArg Body.velocity hmn
    exact hv ▸ h.still m hm
  slack r hr := by
    have hposition : ∀ k, t.position k = w.position k := fun k => by
      have := e.map_position k
      unfold position
      cases ht : t.node? k <;> cases hw : w.node? k <;> simp_all
    have hends : t.ends (w.spring r) = w.ends (w.spring r) := by
      unfold Scene.ends
      simp only [hposition]
    rw [e.spring, hends]
    exact h.slack r (e.listed.subset hr)

theorem AtRest.of_allWithin (hv : ∀ n ∈ w.graph.nodes, n.velocity = Point.zero)
    (h : w.allWithin 0 = .ok true) : w.AtRest := by
  have hgo : ∀ ss, allWithin.go w 0 ss = .ok true → ∀ s ∈ ss, ∃ a b, w.ends s = .ok (a, b) ∧
      s.displacementAt (Point.distance a b) = 0 := by
    intro ss
    induction ss with
    | nil => simp
    | cons s ss ih =>
      intro e
      unfold allWithin.go at e
      cases hp : w.ends s with
      | error _ => simp [hp, bind, Except.bind] at e
      | ok p =>
        simp only [hp, bind, Except.bind, pure, Except.pure] at e
        split at e
        · next hs =>
          refine List.forall_mem_cons.2 ⟨⟨p.1, p.2, hp, ?_⟩, ih e⟩
          have habs := of_decide_eq_true hs
          unfold Scalar.abs at habs
          rw [zero_eq] at habs
          split at habs
          · next hneg => linarith
          · next hnot => linarith
        · cases e
  exact ⟨hv, fun r hr => hgo _ h _ (List.mem_map_of_mem hr)⟩

end Scene

namespace Sketch

/-- Where nothing is missing and all is set for the places of the nodes, and no spring has to pull
at them. -/
structure AtRest (w : Sketch ℝ) : Prop where
  sound : w.Sound
  tidy : w.Tidy
  settled : w.Settled
  scene : w.toScene.AtRest
  cap : ∀ c ∈ w.graph.config.stepping.lengthCap, 0 ≤ c

/-- A spring is set for its bounds and its seat, whatever its strain. -/
theorem Keeps.strain {K : Type} [Scalar K] {w : Sketch K} {r : Ref} {i : Id} {s : Spring K}
    (h : w.Keeps r i s s) (e : Strain K) :
    w.Keeps r i { s with strain := e } { s with strain := e } := by
  obtain ⟨lo, hi, hlo, hhi, hk⟩ := h
  refine ⟨lo, hi, hlo, hhi, ?_⟩
  unfold Quantity.Keeps at hk ⊢
  split at hk
  · exact congrArg (fun s : Spring K => { s with strain := e }) hk
  · obtain ⟨a, b, c, ha, hb, hc, hs⟩ := hk
    exact ⟨a, b, c, ha, hb, hc, congrArg (fun s : Spring K => { s with strain := e }) hs⟩
  · obtain ⟨a, b, c, p, ha, hb, hc, hp, hs⟩ := hk
    exact ⟨a, b, c, p, ha, hb, hc, hp, congrArg (fun s : Spring K => { s with strain := e }) hs⟩
  · exact hk
  · exact hk

namespace AtRest

variable {w : Sketch ℝ}

theorem withScene (h : w.AtRest) {u t : Scene ℝ} (ht : Scene.Onward w.toScene t)
    (hu : Scene.Idle w.toScene u) (hst : Scene.Struck u t) : (w.withScene t).AtRest := by
  have hnode : ∀ k, (t.node? k).map Node.position = (w.node? k).map Node.position := fun k => by
    refine (hst.map_position k).trans ?_
    rw [Scene.node?, Scene.node?, hu.graph]
  have hspring : ∀ s, t.spring s = { w.spring s with strain := (t.spring s).strain } := fun s => by
    rw [hst.spring]
    exact hu.strained.spring s
  constructor
  case sound => exact (onward_withScene h.sound ht).sound
  case tidy =>
    have hisNode : ∀ k, t.isNode k = w.isNode k := fun k => by
      rw [hst.isNode, Scene.isNode, Scene.isNode, Scene.node?, Scene.node?, hu.graph]
    intro r hr
    obtain ⟨hn, hc⟩ := h.tidy r hr
    exact ⟨fun i hi => (hisNode _).trans (hn i hi), fun c hc' => (hisNode _).trans (hc c hc')⟩
  case settled =>
    intro i s hs r hi
    have hws : w.springRef? (some i) = some s :=
      ht.later.springRef? h.sound.scene (h.sound.owned_lt r i hi) hs
    have hk := (h.settled i s hws r hi).strain (t.spring s).strain
    rw [← hspring] at hk
    exact (Reads.withScene hnode ht.later.config).keeps hi.1 hk
  case scene => exact (h.scene.idle hu).struck hst
  case cap =>
    show ∀ c ∈ t.graph.config.stepping.lengthCap, 0 ≤ c
    rw [ht.later.config]
    exact h.cap

theorem refresh (h : w.AtRest) (dt : ℝ) :
    (refresh (some dt)).wp
      (fun _ t => t.AtRest ∧ t.graph.nodes.map Node.body = w.graph.nodes.map Node.body) w := by
  rw [wp_refresh_settled h.sound h.tidy h.settled]
  show (Scene.advance dt).onScene.wp _ w
  rw [wp_onScene]
  refine (Scene.advance_rest h.sound.scene h.scene h.cap dt).mono fun _ t => ?_
  rintro ⟨ht, u, hu, hst⟩
  exact ⟨h.withScene ht hu hst, by rw [← hu.graph]; exact hst.bodies⟩

end AtRest

end Sketch

theorem Settings.fit_standard : (standard : Settings ℝ).Fit := by
  constructor
  case stiffness =>
    intro kind
    refine ⟨_, rfl, ?_⟩
    cases kind <;> simp [Number.val, Constants.standard] <;> norm_num
  case damping =>
    intro kind
    refine ⟨_, rfl, ?_⟩
    cases kind <;> simp [Number.val, Constants.standard] <;> norm_num
  case policy => rfl
  case substeps =>
    have hmany : ¬ ((25 : Int) : ℝ) < 1.0 := by norm_num
    exact ⟨_, rfl, decide_eq_false hmany⟩
  all_goals exact ⟨_, rfl, by simp [Number.val]; norm_num⟩

namespace Bench

theorem frames_rest {w : Bench ℝ} (h : w.toSketch.AtRest) (dts : List ℝ) :
    (after (dts.map .frame) w).graph.nodes.map Node.body = w.graph.nodes.map Node.body := by
  induction dts generalizing w with
  | nil => rfl
  | cons dt dts ih =>
    obtain ⟨hrest, hbodies⟩ := h.refresh dt
    exact (ih hrest).trans hbodies

/-- On a bench that was opened under settings fit for use: if, after any run and a refresh without a
frame, every spring is within its bounds and no node moves, then no number of frames of whatever
length moves a node or gives it a velocity. -/
theorem rest_after_run {c : Settings ℝ} {b : Bench ℝ} (hopen : (openBench c b).outcome = .ok ())
    (ops : List (Op ℝ)) (dts : List ℝ) :
    let t := refreshed (after ops (openBench c b).state)
    t.allWithin 0 = .ok true → (∀ n ∈ t.graph.nodes, n.velocity = Point.zero) →
      (after (dts.map .frame) t).graph.nodes.map Node.body = t.graph.nodes.map Node.body := by
  intro t hwithin hstill
  obtain ⟨hfit, hempty⟩ := openBench_spec c b
  have hfit : c.Fit := hfit.1 hopen
  have hempty : (openBench c b).state = empty c.toConfig b.springs b.quantities := hempty hopen
  have hbegin : (openBench c b).state.toSketch.Sound := by
    rw [hempty]
    exact Sketch.sound_empty _ _ _
  have hrun := after_onward hbegin ops
  have hrefresh : Sketch.Shrunk (after ops (openBench c b).state).toSketch t.toSketch :=
    Sketch.refresh_shrunk hrun.sound none
  have hset : t.toSketch.Tidy ∧ t.toSketch.Settled := (Sketch.refresh_none hrun.sound).2.2.1
  have hrest : t.toSketch.AtRest := by
    refine ⟨hrefresh.sound, hset.1, hset.2, .of_allWithin hstill hwithin, fun cap hcap => ?_⟩
    obtain ⟨n, hn, hpos⟩ := hfit.lengthCap
    rw [hrefresh.toOnward.scene.config, hrun.scene.config, hempty] at hcap
    have hcap : c.lengthCap.number?.map Number.val = some cap := hcap
    rw [hn] at hcap
    cases hcap
    have hpos : ¬ n.val ≤ 0.0 := of_decide_eq_false hpos
    rw [zero_eq] at hpos
    exact (not_le.1 hpos).le
  exact frames_rest hrest dts

/-- Nodes at `(0, 0)` and `(1, 0)`, as far apart as they are declared to be. -/
noncomputable def apartRun : List (Op ℝ) :=
  let node (x y : ℝ) : Op ℝ := .sketch (.scene (.addNode (.ofPoint ⟨x, y⟩)))
  let one : BoundArg Ref ℝ := .number (.real 1)
  [node 0 0, node 1 0, .sketch (.declareDistance (some 0) (some 1) one one)]

theorem rest_apart :
    (openBench Settings.standard (empty default {} {} : Bench ℝ)).outcome = .ok () ∧
      let t := refreshed
        (after apartRun (openBench Settings.standard (empty default {} {})).state)
      t.allWithin 0 = .ok true ∧ (∀ n ∈ t.graph.nodes, n.velocity = Point.zero) ∧
        (after ([1, 2].map .frame) t).graph.nodes.map Node.body =
          t.graph.nodes.map Node.body := by
  obtain ⟨hopen, hempty⟩ := openBench_spec Settings.standard (empty default {} {} : Bench ℝ)
  have hopen := hopen.2 Settings.fit_standard
  have hempty := hempty hopen
  refine ⟨hopen, ?_⟩
  intro t
  have ht : t = refreshed (after apartRun (empty Settings.standard.toConfig {} {})) :=
    congrArg (fun w => refreshed (after apartRun w)) hempty
  have hwithin : t.allWithin 0 = .ok true := by
    have hslack : (t.spring 0).displacementAt (Point.distance ⟨0, 0⟩ ⟨1, 0⟩) = 0 := by
      rw [Spring.displacementAt_eq_zero_iff, ht]
      show Between (some 1) (some 1) _
      have hone : Point.distance (⟨0, 0⟩ : Point ℝ) ⟨1, 0⟩ = 1 := by
        simp [Point.distance_eq]
      rw [hone]
      simp [Between]
    have hends : t.ends (t.spring 0) = .ok (⟨0, 0⟩, ⟨1, 0⟩) := by
      rw [ht]
      rfl
    have hmembers : t.toScene.members = [t.spring 0] := by
      rw [ht]
      rfl
    unfold Scene.allWithin
    rw [hmembers]
    simp [Scene.allWithin.go, hends, Spring.isWithin, hslack, Scalar.abs, zero_eq, bind,
      Except.bind]
  have hstill : ∀ n ∈ t.graph.nodes, n.velocity = Point.zero := by
    have hnodes : t.graph.nodes.map Node.velocity = [Point.zero, Point.zero] := by
      rw [ht]
      rfl
    intro n hn
    have hmem := hnodes ▸ List.mem_map_of_mem (f := Node.velocity) hn
    simpa using hmem
  exact ⟨hwithin, hstill, rest_after_run hopen apartRun [1, 2] hwithin hstill⟩

end Bench

end Linkage
