import Linkage.Proofs.Scene.Edit
import Linkage.Scene.Frame

/-!
# What a frame leaves alone

A frame changes nothing of a spring but its strain, and nothing of a node but where it is and how
fast; `Scene.Strained` says this of two scenes. At its end springs may be struck out, and nothing
else is (`advance_spec`).
-/

namespace Linkage.Spring

variable {K : Type} [Scalar K]

/-- Zero where the constants are no numbers. -/
def stiffness (s : Spring K) : K := (s.constants.map Constants.stiffness).getD 0.0

/-- Zero where the constants are no numbers. -/
def damping (s : Spring K) : K := (s.constants.map Constants.damping).getD 0.0

/-- Both halves of a sub-step. -/
def strained (s : Spring K) (a b : Point K) (h cap : K) : Except (Failure K) (Spring K) :=
  (s.displaced a b h cap).bind fun s => s.loaded a b

/-- The strain of a sub-step, for endpoints at `a` and `b` and a displacement rate. -/
def strainFor (s : Spring K) (a b : Point K) (d rate : K) : Strain K :=
  if Point.distance a b < Scalar.tiny then ⟨d, d, rate, 0.0, Point.zero⟩
  else ⟨d, d, rate, -s.damping * rate - s.stiffness * d, Point.ofAngle (Point.angle a b)⟩

variable {s s' : Spring K} {a b : Point K} {h cap : K}

/-- Only the division by the length of the sub-step can fail. -/
theorem displaced_eq_ok_iff :
    s.displaced a b h cap = .ok s' ↔ ∃ rate,
      divide (s.cappedAt (Point.distance a b) cap - s.strain.previous) h = .ok rate ∧
        s' = { s with strain :=
          { s.strain with
            displacement := s.cappedAt (Point.distance a b) cap
            previous := s.cappedAt (Point.distance a b) cap
            rate := rate } } := by
  simp only [displaced]
  cases divide (s.cappedAt (Point.distance a b) cap - s.strain.previous) h <;>
    simp [bind, Except.bind, pure, Except.pure, eq_comm]

/-- There is a force where the constants are numbers, and no need for one where the endpoints are in
one place. -/
theorem loaded_eq_ok_iff :
    s.loaded a b = .ok s' ↔ (Point.distance a b < Scalar.tiny ∨ s.constants.isSome) ∧
      s' = { s with strain :=
        { s.strain with
          force := (s.strainFor a b s.strain.displacement s.strain.rate).force
          direction := (s.strainFor a b s.strain.displacement s.strain.rate).direction } } := by
  unfold loaded strainFor stiffness damping
  by_cases hd : Point.distance a b < Scalar.tiny
  · simp only [hd, if_true, true_or, true_and]
    exact ⟨fun e => (Except.ok.inj e).symm, fun e => congrArg Except.ok e.symm⟩
  · simp only [hd, if_false, false_or]
    cases hc : s.constants with
    | none => simp [asNumber, bind, Except.bind]
    | some c =>
      rw [Option.isSome_some, eq_self_iff_true, true_and]
      exact ⟨fun e => (Except.ok.inj e).symm, fun e => congrArg Except.ok e.symm⟩

theorem strained_eq_ok_iff :
    s.strained a b h cap = .ok s' ↔ ∃ rate,
      divide (s.cappedAt (Point.distance a b) cap - s.strain.previous) h = .ok rate ∧
        (Point.distance a b < Scalar.tiny ∨ s.constants.isSome) ∧
        s' = { s with strain := s.strainFor a b (s.cappedAt (Point.distance a b) cap) rate } := by
  simp only [strained, bind_eq_ok_iff, displaced_eq_ok_iff, loaded_eq_ok_iff]
  constructor
  · rintro ⟨_, ⟨rate, hrate, rfl⟩, hload, rfl⟩
    refine ⟨rate, hrate, hload, ?_⟩
    unfold strainFor
    split <;> rfl
  · rintro ⟨rate, hrate, hload, rfl⟩
    refine ⟨_, ⟨rate, hrate, rfl⟩, hload, ?_⟩
    unfold strainFor
    split <;> rfl

end Linkage.Spring

namespace Linkage.Scene

open Act

variable {K : Type} [Scalar K] {w t u : Scene K} {r : Ref}

/-- Only strains, places and velocities differ. -/
structure Strained (w t : Scene K) : Prop where
  graph : t.graph = { w.graph with nodes := t.graph.nodes }
  nodes : (t.graph.nodes.map fun n => (n.id, n.springIds)) =
    w.graph.nodes.map fun n => (n.id, n.springIds)
  size : t.springs.size = w.springs.size
  spring : ∀ r, t.spring r = { w.spring r with strain := (t.spring r).strain }

namespace Strained

theorem refl (w : Scene K) : Strained w w := ⟨rfl, rfl, rfl, fun _ => rfl⟩

theorem trans (h : Strained w t) (h' : Strained t u) : Strained w u where
  graph := by
    rw [h'.graph, h.graph]
  nodes := h'.nodes.trans h.nodes
  size := h'.size.trans h.size
  spring r := by
    rw [h'.spring r, h.spring r]

theorem alike (h : Strained w t) : Alike w t where
  nodes := h.nodes
  listed := by rw [h.graph]
  connections := by rw [h.graph]
  nextNode := by rw [h.graph]
  nextSpring := by rw [h.graph]
  size_le := Nat.le_of_eq h.size.symm
  id r _ := by rw [h.spring r]
  kind r _ := by rw [h.spring r]
  endpoints r _ := by
    rw [h.spring r]
    rfl
  config := by rw [h.graph]

end Strained

/-- Only strains differ. -/
structure Idle (w t : Scene K) : Prop where
  strained : Strained w t
  graph : t.graph = w.graph

namespace Idle

theorem refl (w : Scene K) : Idle w w := ⟨.refl w, rfl⟩

theorem trans (h : Idle w t) (h' : Idle t u) : Idle w u :=
  ⟨h.strained.trans h'.strained, h'.graph.trans h.graph⟩

theorem ends_eq (h : Idle w t) (s : Spring K) : t.ends s = w.ends s := by
  unfold Scene.ends Scene.position Scene.node?
  rw [h.graph]

theorem ends (h : Idle w t) (r : Ref) : t.ends (t.spring r) = w.ends (w.spring r) := by
  rw [h.ends_eq, h.strained.spring r]
  rfl

theorem setSpring {s : Spring K} (h : s = { w.spring r with strain := s.strain }) :
    Idle w (w.setSpring r s) := by
  refine ⟨⟨rfl, rfl, Arena.size_set, fun r' => ?_⟩, rfl⟩
  rcases spring_setSpring w r s r' with e | ⟨rfl, e⟩ <;> rw [e]
  exact h

end Idle

/-! ### Rounds -/

/-- A change of a spring that only concerns its strain. -/
def StrainOnly (f : Spring K → Point K → Point K → Except (Failure K) (Spring K)) : Prop :=
  ∀ s a b s', f s a b = .ok s' → s' = { s with strain := s'.strain }

omit [Scalar K] in
theorem StrainOnly.endpoints {f : Spring K → Point K → Point K → Except (Failure K) (Spring K)}
    (hf : StrainOnly f) {s s' : Spring K} {a b : Point K} (e : f s a b = .ok s') :
    s'.endpoints = s.endpoints := by
  rw [hf s a b s' e]
  rfl

theorem strainOnly_relaxed (cap : Option K) :
    StrainOnly fun s a b => (asNumber cap).map (s.relaxed a b) := by
  intro s a b s' h
  cases cap with
  | none => cases h
  | some c =>
    cases h
    rfl

theorem strainOnly_displaced (h : K) (cap : Option K) :
    StrainOnly fun s a b => (asNumber cap).bind (s.displaced a b h) := by
  intro s a b s' e
  cases cap with
  | none => cases e
  | some c =>
    obtain ⟨rate, -, rfl⟩ := Spring.displaced_eq_ok_iff.1 e
    rfl

theorem strainOnly_loaded : StrainOnly fun s a b => (s : Spring K).loaded a b := by
  intro s a b s' e
  obtain ⟨-, rfl⟩ := Spring.loaded_eq_ok_iff.1 e
  rfl

/-- `x` has a spring look at its ends, and makes of it what `f` says. A spring that fails may be
left with another strain. -/
structure Looks (x : Ref → Act K (Scene K) Unit)
    (f : Spring K → Point K → Point K → Except (Failure K) (Spring K)) : Prop where
  idle : ∀ w r, (x r).wp (fun _ t => Idle w t) w
  other : ∀ w r, (x r).wp (fun _ t => ∀ r' ≠ r, t.spring r' = w.spring r') w
  self : ∀ {w r}, r < w.springs.size → (x r).wp (fun o t =>
    o.map (fun _ => t.spring r) = (w.ends (w.spring r)).bind fun p => f (w.spring r) p.1 p.2) w

section

variable {f g : Spring K → Point K → Point K → Except (Failure K) (Spring K)}
  {x y : Ref → Act K (Scene K) Unit}

theorem looks_observe (hf : StrainOnly f) : Looks (observe f) f where
  idle w r := by
    unfold observe
    rw [wp_bind, wp_read, next_ok]
    refine wp_bind_look rfl (fun _ => .refl w) fun p _ => ?_
    refine wp_bind_look rfl (fun _ => .refl w) fun s hs => ?_
    exact .setSpring (hf _ _ _ _ hs)
  other w r := by
    unfold observe
    rw [wp_bind, wp_read, next_ok]
    refine wp_bind_look rfl (fun _ _ _ => rfl) fun p _ => ?_
    refine wp_bind_look rfl (fun _ _ _ => rfl) fun s _ => ?_
    exact fun r' => spring_setSpring_ne
  self {w r} hr := by
    unfold observe
    simp only [wp_bind, wp_read, next_ok, wp_ofExcept]
    cases w.ends (w.spring r) with
    | error e => rfl
    | ok p =>
      simp only [next_ok, wp_bind, wp_ofExcept]
      cases hs : f (w.spring r) p.1 p.2 with
      | error e => exact hs.symm
      | ok s =>
        simp only [next_ok, wp_change]
        exact (congrArg Except.ok (spring_setSpring_self hr)).trans hs.symm

/-- Looking once more, with what has become of the spring. -/
theorem Looks.andThen (hx : Looks x f) (hy : Looks y g) :
    Looks (fun r => do x r; y r) fun s a b => (f s a b).bind fun s => g s a b where
  idle w r := wp_bind_keep (hx.idle w r) fun _ t ht => (hy.idle t r).mono fun _ _ => ht.trans
  other w r := wp_bind_keep (hx.other w r) fun _ t ht =>
    (hy.other t r).mono fun _ _ ht' r' hr' => (ht' r' hr').trans (ht r' hr')
  self {w r} hr := by
    rw [wp_bind]
    refine ((hx.idle w r).and (hx.self hr)).mono fun o t => ?_
    rintro ⟨ht, hself⟩
    cases o with
    | error e =>
      rw [next_error]
      cases he : w.ends (w.spring r) with
      | error e' => exact hself.trans (by rw [he]; rfl)
      | ok p =>
        have hf : .error e = f (w.spring r) p.1 p.2 := hself.trans (by rw [he]; rfl)
        simp only [Except.bind, ← hf, Except.map]
    | ok _ =>
      rw [next_ok]
      refine (hy.self (ht.strained.size.symm ▸ hr)).mono fun o u hu => ?_
      rw [ht.ends r] at hu
      cases he : w.ends (w.spring r) with
      | error e => exact hu.trans (by rw [he]; rfl)
      | ok p =>
        have hf : .ok (t.spring r) = f (w.spring r) p.1 p.2 := hself.trans (by rw [he]; rfl)
        rw [hu, he]
        simp only [Except.bind, ← hf]

/-- What is kept while only strains change. -/
theorem Looks.forEach_idle (hx : Looks x f) (w : Scene K) (rs : List Ref) :
    (forEach x rs).wp (fun _ t => Idle w t) w :=
  wp_forEach (.refl w) fun r _ t ht => (hx.idle t r).mono fun _ _ => ht.trans

end

theorem looks_relaxed (cap : Option K) :
    Looks (observe fun s a b => (asNumber cap).map (s.relaxed a b))
      fun s a b => (asNumber cap).map (s.relaxed a b) :=
  looks_observe (strainOnly_relaxed cap)

theorem looks_strained (h : K) (cap : Option K) :
    Looks (strainOne h cap) fun s a b => (asNumber cap).bind (s.strained a b h) := by
  have hdisplaced := looks_observe (strainOnly_displaced h cap)
  have hboth := hdisplaced.andThen (looks_observe strainOnly_loaded)
  cases cap with
  | none => exact hboth
  | some c => exact hboth

theorem strainOnly_strained (h : K) (cap : Option K) :
    StrainOnly fun s a b => (asNumber cap).bind (s.strained a b h) := by
  intro s a b s' e
  cases cap with
  | none => cases e
  | some c =>
    obtain ⟨rate, -, -, rfl⟩ := Spring.strained_eq_ok_iff.1 e
    rfl

/-- The graph stays, too. -/
theorem relax_idle (w : Scene K) (cap : Option K) : (relax cap).wp (fun _ t => Idle w t) w := by
  unfold relax
  rw [wp_bind, wp_read]
  exact (looks_relaxed cap).forEach_idle w _

theorem strain_idle (w : Scene K) (h : K) (cap : Option K) :
    (strain h cap).wp (fun _ t => Idle w t) w := by
  unfold strain
  rw [wp_bind, wp_read]
  exact (looks_strained h cap).forEach_idle w _

theorem relax_strained (w : Scene K) (cap : Option K) :
    (relax cap).wp (fun _ t => Strained w t) w :=
  (relax_idle w cap).mono fun _ _ ht => ht.strained

theorem strain_strained (w : Scene K) (h : K) (cap : Option K) :
    (strain h cap).wp (fun _ t => Strained w t) w :=
  (strain_idle w h cap).mono fun _ _ ht => ht.strained

theorem move_strained (w : Scene K) (friction h : K) : Strained w (w.move friction h) := by
  refine ⟨rfl, ?_, rfl, fun _ => rfl⟩
  simp only [move, mapNodes, List.map_map]
  rfl

/-- What looking and moving keep is kept by a sub-step, however it ends. -/
theorem substep_invariant {I : Scene K → Prop} (hidle : ∀ t u, I t → Idle t u → I u)
    (hmove : ∀ t friction h, I t → I (t.move friction h)) (h : I w) (c : Stepping K) (dh : K) :
    (substep c dh).wp (fun _ t => I t) w := by
  unfold substep
  refine wp_bind_keep ((strain_idle w dh _).mono fun _ t => hidle w t h) fun _ t ht => ?_
  simp only [wp_bind, wp_read, next_ok, wp_ite, wp_ofExcept]
  split
  · exact ht
  · cases asNumber c.friction with
    | error e => exact ht
    | ok friction => exact hmove t friction dh ht

theorem substep_strained (w : Scene K) (c : Stepping K) (h : K) :
    (substep c h).wp (fun _ t => Strained w t) w :=
  substep_invariant (fun _ _ ht hu => ht.trans hu.strained)
    (fun t friction h ht => ht.trans (move_strained t friction h)) (.refl w) c h

theorem times_strained (w : Scene K) (c : Stepping K) (h : K) (n : Nat) :
    (times n (substep c h)).wp (fun _ t => Strained w t) w :=
  wp_times (.refl w) (fun t ht => (substep_strained t c h).mono fun _ _ => ht.trans) n

/-! ### The whole frame -/

/-- What is expired is struck out, and nothing else is. -/
theorem sweep_spec (h : w.Sound) :
    (sweep : Act K (Scene K) Unit).wp
      (fun o t => o = .ok () ∧ Onward w t ∧ Struck w t ∧
        t.graph.listed = w.graph.listed.filter fun r => !(w.spring r).expired) w := by
  unfold sweep
  rw [wp_bind, wp_read, next_ok]
  refine (forEach_deleteListed h (fun r hr => (List.mem_filter.1 hr).1)
    (h.listed_nodup.sublist List.filter_sublist)).mono fun o t => ?_
  rintro ⟨rfl, ht, hst, hl⟩
  refine ⟨rfl, ht, hst, hl.trans (List.filter_congr fun r hr => ?_)⟩
  simp [hr]

/-- A frame of no or negative length. -/
theorem advance_nothing {dt : K} (hdt : dt ≤ 0.0) (w : Scene K) :
    advance dt w = ⟨.ok (), w, []⟩ := by
  rw [advance, if_pos hdt]
  rfl

/-- The rule for frames: `I` holds wherever a frame ends before the sweep, and `R` besides from the
time that all springs are relaxed. A frame that does not fail does nothing at all or ends with a
sweep. -/
theorem wp_advance {I R : Scene K → Prop} {J : Except (Failure K) Unit → Scene K → Prop} (dt : K)
    (start : I w) (nothing : dt ≤ 0.0 → J (.ok ()) w) (stop : ∀ e t, I t → J (.error e) t)
    (relaxes : (relax w.graph.config.stepping.lengthCap).wp
      (fun o t => I t ∧ (o = .ok () → R t)) w)
    (steps : ∀ dh t, I t → R t → (substep w.graph.config.stepping dh).wp
      (fun o t' => I t' ∧ (o = .ok () → R t')) t)
    (sweeps : ¬ dt ≤ 0.0 → ∀ t, I t → R t → sweep.wp J t) :
    (advance dt).wp J w := by
  unfold advance
  rw [wp_ite]
  split
  · next hdt => exact nothing hdt
  next hdt =>
  rw [wp_bind, wp_read, next_ok]
  refine wp_bind_look rfl (fun e => stop e w start) fun n _ => ?_
  refine wp_bind_look rfl (fun e => stop e w start) fun dh _ => ?_
  rw [wp_bind]
  refine relaxes.mono fun o t => ?_
  rintro ⟨ht, hr⟩
  cases o with
  | error e => exact stop e t ht
  | ok _ =>
    rw [next_ok]
    refine wp_bind_look rfl (fun e => stop e t ht) fun n _ => ?_
    rw [wp_bind]
    refine (wp_times_ok ht (hr rfl) (steps dh) n).mono fun o u => ?_
    rintro ⟨hu, hr⟩
    cases o with
    | error e => exact stop e u hu
    | ok _ =>
      rw [next_ok, wp_bind]
      refine (sweeps hdt u hu (hr rfl)).mono fun o v hv => ?_
      cases o with
      | error e => exact hv
      | ok _ => exact hv

/-- Where it does not matter whether the frame fails. -/
theorem advance_keep {I R J : Scene K → Prop} (dt : K) (start : I w) (stop : ∀ t, I t → J t)
    (relaxes : (relax w.graph.config.stepping.lengthCap).wp
      (fun o t => I t ∧ (o = .ok () → R t)) w)
    (steps : ∀ dh t, I t → R t → (substep w.graph.config.stepping dh).wp
      (fun o t' => I t' ∧ (o = .ok () → R t')) t)
    (sweeps : ∀ t, I t → R t → sweep.wp (fun _ t' => J t') t) :
    (advance dt).wp (fun _ t => J t) w :=
  wp_advance dt start (fun _ => stop w start) (fun _ => stop) relaxes steps fun _ => sweeps

/-- What looking, moving and sweeping keep is kept by a frame, however it ends. -/
theorem advance_invariant {I : Scene K → Prop} (hidle : ∀ t u, I t → Idle t u → I u)
    (hmove : ∀ t friction h, I t → I (t.move friction h))
    (hsweep : ∀ t, I t → sweep.wp (fun _ t' => I t') t) (h : I w) (dt : K) :
    (advance dt).wp (fun _ t => I t) w := by
  refine advance_keep (R := fun _ => True) dt h (fun _ => id) ?relaxes ?steps ?sweeps
  case relaxes => exact (relax_idle w _).mono fun _ t ht => ⟨hidle w t h ht, fun _ => trivial⟩
  case steps =>
    intro dh t ht _
    exact (substep_invariant hidle hmove ht _ dh).mono fun _ t' ht' => ⟨ht', fun _ => trivial⟩
  case sweeps => exact fun t ht _ => hsweep t ht

/-- Up to `u` only strains, places and velocities change; after that springs are only struck out. -/
theorem advance_spec (h : w.Sound) (dt : K) :
    (advance dt).wp (fun _ t => Onward w t ∧ ∃ u, Strained w u ∧ Struck u t) w := by
  refine advance_keep (I := Strained w) (R := fun _ => True) dt (.refl w) ?stop ?relaxes ?steps
    ?sweeps
  case stop => exact fun t ht => ⟨(Onward.refl h).alike ht.alike, t, ht, .refl t⟩
  case relaxes => exact (relax_strained w _).mono fun _ t ht => ⟨ht, fun _ => trivial⟩
  case steps =>
    intro dh t ht _
    exact (substep_strained t _ dh).mono fun _ t' ht' => ⟨ht.trans ht', fun _ => trivial⟩
  case sweeps =>
    intro t ht _
    have ho := (Onward.refl h).alike ht.alike
    refine (sweep_spec ho.sound).mono fun _ t' => ?_
    rintro ⟨-, ht', hst, -⟩
    exact ⟨ho.trans ht', t, ht, hst⟩

/-- A frame does not touch ids, lines and settings, and of a spring it touches the strain only. -/
theorem advance_graph (h : w.Sound) (dt : K) :
    (advance dt).wp
      (fun _ t => t.graph = { w.graph with nodes := t.graph.nodes, listed := t.graph.listed } ∧
        ∀ r, t.spring r = { w.spring r with strain := (t.spring r).strain }) w := by
  refine (advance_spec h dt).mono fun _ t => ?_
  rintro ⟨-, u, hu, hst⟩
  constructor
  · obtain ⟨springs, config, nodes, listed, connections, nextNode, nextSpring⟩ := t
    cases hst.config
    cases hst.connections
    cases hst.nextNode
    cases hst.nextSpring
    rw [hu.graph]
  · intro r
    rw [hst.spring]
    exact hu.spring r

/-- A frame that does not fail has swept, if it did anything at all. -/
theorem advance_listed (h : w.Sound) {dt : K} (hdt : ¬ dt ≤ 0.0) :
    (advance dt).wp (fun o t => o = .ok () →
      t.graph.listed = w.graph.listed.filter fun r => !(w.spring r).expired) w := by
  refine wp_advance (I := Strained w) (R := fun _ => True) dt (.refl w) (fun hle => absurd hle hdt)
    (fun e _ _ ho => by cases ho) ((relax_strained w _).mono fun _ t ht => ⟨ht, fun _ => trivial⟩)
    (fun dh t ht _ => (substep_strained t _ dh).mono fun _ t' ht' =>
      ⟨ht.trans ht', fun _ => trivial⟩) fun _ t ht _ => ?_
  refine (sweep_spec (h.alike ht.alike)).mono fun _ t' => ?_
  rintro ⟨-, -, -, hl⟩ -
  rw [hl, ht.alike.listed]
  exact List.filter_congr fun r _ => by rw [ht.spring r]

end Linkage.Scene
