import Linkage.Proofs.Motion

/-!
# Frames that fail

In a sub-step all springs look before any node moves, so that a sub-step that fails has moved no
node (`Scene.substep_idle`). A frame that fails has made whole sub-steps before; if it has no more
than one it changes strains only (`Scene.advance_idle`).

All springs of a sound scene find their ends (`Scene.joined_motion`), so that looking fails only for
what they do there.
-/

namespace Linkage

open Act

variable {K : Type}

theorem exists_of_mapM_error {ε α β : Type} {g : α → Except ε β} {l : List α} {e : ε}
    (h : l.mapM g = .error e) : ∃ a ∈ l, g a = .error e := by
  induction l with
  | nil => cases h
  | cons a l ih =>
    rw [List.mapM_cons] at h
    cases ha : g a with
    | error e' =>
      rw [ha] at h
      cases h
      exact ⟨a, List.mem_cons_self, ha⟩
    | ok b =>
      cases hl : l.mapM g with
      | error e' =>
        rw [ha, hl] at h
        cases h
        obtain ⟨a', ha', hfail⟩ := ih hl
        exact ⟨a', List.mem_cons_of_mem _ ha', hfail⟩
      | ok bs =>
        rw [ha, hl] at h
        cases h

namespace Motion

variable {m u v : Motion K} {s : Spring K} {b : Body K} {k : Key}
  {f : Spring K → Point K → Point K → Except (Failure K) (Spring K)}

/-- No two bodies have one id, and every spring ends at bodies. -/
structure Joined (m : Motion K) : Prop where
  nodup : (m.bodies.map Body.id).Nodup
  ends : ∀ s ∈ m.springs, ∀ k ∈ s.endpoints, ∃ b ∈ m.bodies, some b.id = k

namespace Joined

theorem position_eq (hm : m.Joined) (hb : b ∈ m.bodies) :
    m.position (some b.id) = .ok b.position := by
  unfold position
  cases e : m.bodies.find? fun b' => some b'.id == some b.id with
  | none =>
    have := List.find?_eq_none.1 e b hb
    simp at this
  | some b' =>
    have hid : b'.id = b.id := by simpa using List.find?_some e
    rw [List.inj_on_of_nodup_map hm.nodup (List.mem_of_find?_eq_some e) hb hid]

theorem exists_ends (hm : m.Joined) (hs : s ∈ m.springs) : ∃ p, m.ends s = .ok p := by
  have hends := hm.ends s hs
  have hposition : ∀ k ∈ s.endpoints, ∃ p, m.position k = .ok p := fun k hk => by
    obtain ⟨b, hb, rfl⟩ := hends k hk
    exact ⟨b.position, hm.position_eq hb⟩
  unfold Spring.endpoints at hposition
  cases ha : s.a with
  | point p =>
    simp only [ha, List.mem_singleton, forall_eq] at hposition
    obtain ⟨q, hq⟩ := hposition
    exact ⟨(p, q), by simp only [Motion.ends, ha, hq]; rfl⟩
  | node i =>
    simp only [ha, List.mem_cons, List.not_mem_nil, or_false, forall_eq_or_imp,
      forall_eq] at hposition
    obtain ⟨⟨p, hp⟩, q, hq⟩ := hposition
    exact ⟨(p, q), by simp only [Motion.ends, ha, hp, hq]; rfl⟩

theorem congr (hm : m.Joined) (hids : u.bodies.map Body.id = m.bodies.map Body.id)
    (hs : ∀ s' ∈ u.springs, ∃ s ∈ m.springs, s'.endpoints = s.endpoints) : u.Joined := by
  refine ⟨hids ▸ hm.nodup, fun s' hs' k hk => ?_⟩
  obtain ⟨s, hs, he⟩ := hs s' hs'
  obtain ⟨b, hb, rfl⟩ := hm.ends s hs k (he ▸ hk)
  have hb : b.id ∈ u.bodies.map Body.id := hids ▸ List.mem_map_of_mem hb
  obtain ⟨b', hb', e⟩ := List.mem_map.1 hb
  exact ⟨b', hb', congrArg some e⟩

theorem look (hm : m.Joined) (hf : Scene.StrainOnly f) (e : m.look f = .ok u) : u.Joined := by
  refine hm.congr (by rw [(look_eq_ok_iff.1 e).1]) fun s' hs' => ?_
  obtain ⟨s, hs, p, -, hs'⟩ := exists_of_look e hs'
  exact ⟨s, hs, hf.endpoints hs'⟩

end Joined

/-! ### What can fail -/

theorem Joined.look_ok (hm : m.Joined)
    (hf : ∀ s ∈ m.springs, ∀ a b, ∃ s', f s a b = .ok s') : ∃ u, m.look f = .ok u := by
  refine exists_look fun s hs => ?_
  obtain ⟨p, hp⟩ := hm.exists_ends hs
  exact ⟨p, hp, hf s hs p.1 p.2⟩

/-- If looking fails then it fails for a spring that has found its ends. -/
theorem Joined.look_error (hm : m.Joined) {e : Failure K} (h : m.look f = .error e) :
    ∃ s ∈ m.springs, ∃ p, m.ends s = .ok p ∧ f s p.1 p.2 = .error e := by
  have hmap : (m.springs.mapM fun s => (m.ends s).bind fun p => f s p.1 p.2) = .error e := by
    unfold Motion.look at h
    cases hl : m.springs.mapM fun s => (m.ends s).bind fun p => f s p.1 p.2 with
    | error e' =>
      rw [hl] at h
      cases h
      rfl
    | ok ss =>
      rw [hl] at h
      cases h
  obtain ⟨s, hs, hfail⟩ := exists_of_mapM_error hmap
  obtain ⟨p, hp⟩ := hm.exists_ends hs
  rw [hp] at hfail
  exact ⟨s, hs, p, hp, hfail⟩

variable [Scalar K] {c : Stepping K} {h : K}

theorem Joined.move (hm : m.Joined) (friction h : K) : (m.move friction h).Joined :=
  hm.congr (by simp [Motion.move]) fun s hs => ⟨s, hs, rfl⟩

theorem Joined.substep (hm : m.Joined) (e : m.substep c h = .ok u) : u.Joined := by
  obtain ⟨v, hv, e⟩ := bind_eq_ok_iff.1 e
  have hvj : v.Joined := hm.look (Scene.strainOnly_strained h _) hv
  split at e
  · cases e
    exact hvj
  · obtain ⟨friction, -, rfl⟩ := map_eq_ok_iff.1 e
    exact hvj.move friction h

end Motion

/-- The count of sub-steps is a number. -/
theorem Stepping.stepsFor_of_count [Scalar K] {c : Stepping K} {dt : K} {steps : Number K}
    (h : (c.stepsFor dt).bind (fun v => asNumber v.number?) = .ok steps) :
    c.stepsFor dt = .ok (.number steps) := by
  obtain ⟨v, hv, hnumber⟩ := bind_eq_ok_iff.1 h
  have hsome : v.number? = some steps := asNumber_eq_ok_iff.1 hnumber
  cases v with
  | number m =>
    cases hsome
    exact hv
  | _ => cases hsome

namespace Scene

variable [Scalar K] {w t : Scene K} {c : Stepping K}

theorem joined_motion (h : w.Sound) : w.motion.Joined := by
  have hids : w.motion.bodies.map Body.id = w.graph.nodes.map Node.id := by
    rw [motion, List.map_map]
    rfl
  refine ⟨hids ▸ h.nodeIds_nodup, fun s hs k hk => ?_⟩
  obtain ⟨r, hr, rfl⟩ := List.mem_map.1 hs
  obtain ⟨n, hn, rfl⟩ := isNode_iff.1 (h.endpoints r hr k hk)
  exact ⟨n.body, List.mem_map_of_mem hn, rfl⟩

/-! ### Sub-steps and frames -/

theorem Idle.bodies (h : Idle w t) : t.motion.bodies = w.motion.bodies := by
  show t.graph.nodes.map Node.body = w.graph.nodes.map Node.body
  rw [h.graph]

theorem Idle.members (h : Idle w t) :
    List.Forall₂ (fun s s' : Spring K => s' = { s with strain := s'.strain }) w.members
      t.members := by
  unfold Scene.members
  rw [h.graph, List.forall₂_map_left_iff, List.forall₂_map_right_iff]
  exact List.forall₂_same.2 fun r _ => h.strained.spring r

/-- A sub-step that fails has moved no node. -/
theorem substep_idle (w : Scene K) (c : Stepping K) (dh : K) :
    (substep c dh).wp (fun o t => o ≠ .ok () → Idle w t) w := by
  unfold substep
  rw [wp_bind]
  refine (strain_idle w dh _).mono fun o t ht => ?_
  cases o with
  | error e => exact fun _ => ht
  | ok _ =>
    simp only [next_ok, wp_bind, wp_read, wp_ite, wp_ofExcept]
    split
    · exact fun _ => ht
    · cases asNumber c.friction with
      | error e => exact fun _ => ht
      | ok friction => exact fun hne => absurd rfl hne

/-- A frame that fails changes strains only, if it does not have more than one sub-step. -/
theorem advance_idle (h : w.Sound) {dt : K}
    (hone : ∀ steps n, w.graph.config.stepping.stepsFor dt = .ok (.number steps) →
      steps.times = .ok n → n ≤ 1) :
    (advance dt).wp (fun o t => o ≠ .ok () → Idle w t) w := by
  unfold advance
  rw [wp_ite]
  split
  · exact fun _ => .refl w
  rw [wp_bind, wp_read, next_ok]
  refine wp_bind_look rfl (fun _ _ => .refl w) fun steps hsteps => ?_
  refine wp_bind_look rfl (fun _ _ => .refl w) fun dh _ => ?_
  rw [wp_bind]
  refine (relax_idle w _).mono fun o t ht => ?_
  cases o with
  | error e => exact fun _ => ht
  | ok _ =>
    rw [next_ok]
    refine wp_bind_look rfl (fun _ _ => ht) fun n hn => ?_
    have hfails : (times n (substep w.graph.config.stepping dh)).wp
        (fun o u => o ≠ .ok () → Idle t u) t := by
      obtain rfl | rfl := Nat.le_one_iff_eq_zero_or_eq_one.1
        (hone steps n (Stepping.stepsFor_of_count hsteps) hn)
      · exact fun hne => absurd rfl hne
      · rw [times_one]
        exact substep_idle t _ dh
    have hts : t.Sound := h.alike ht.strained.alike
    rw [wp_bind]
    refine (hfails.and (times_strained t _ dh n)).mono fun o u => ?_
    rintro ⟨hu, hst⟩
    cases o with
    | error e => exact fun hne => ht.trans (hu hne)
    | ok _ =>
      rw [next_ok, wp_bind]
      refine (sweep_spec (hts.alike hst.alike)).mono fun o v => ?_
      rintro ⟨rfl, -⟩ hne
      exact absurd rfl hne

end Scene

end Linkage
