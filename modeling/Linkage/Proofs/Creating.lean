import Linkage.Proofs.Hold
import Linkage.Proofs.Undoing

/-!
# Created as refreshed

Springs are set in two places: where they are made, each by the call that makes it, and in a
refresh, all of them together and after what lost its nodes is gone. `Bench.steady_after_run` says
that the two agree: a refresh right after a call leaves the springs of the call as they are.

`Sketch.Fitted` is what a call says of a spring of its own: the owner has its nodes and sets the
spring as it is. A refresh keeps that (`Fitted.refresh`), although bounds are opened and captives go
on the way. What the call could read to set the spring had all its nodes, so that none of it goes.
-/

namespace Linkage

namespace Quantity

open Scene

variable {K : Type} [Scalar K] {w t : Scene K} {q : Quantity K} {i : Id}

omit [Scalar K] in
theorem isNode_of_position {p : Point K} (h : q.position w i = .ok p) : w.isNode (some i) := by
  unfold position at h
  split at h
  · next n hn => exact isNode_of_node? hn
  · cases h

omit [Scalar K] in
theorem position_of_map {p : Point K} (h : (w.node? (some i)).map Node.position = some p) :
    q.position w i = .ok p := by
  obtain ⟨n, hn, rfl⟩ := Option.map_eq_some_iff.1 h
  rw [position, hn]

omit [Scalar K] in
theorem Proper.of_ends_eq (hq : q.Proper) {p : Point K × Point K} (h : q.ends w = .ok p) :
    q.position w q.a = .ok p.1 ∧ q.position w q.b = .ok p.2 := by
  have hends : q.ends w = (do return (← q.position w q.a, ← q.position w q.b)) := by
    unfold Proper at hq
    unfold ends
    split at hq <;> simp_all
  rw [hends] at h
  obtain ⟨a, ha, h⟩ := bind_eq_ok_iff.1 h
  obtain ⟨b, hb, h⟩ := bind_eq_ok_iff.1 h
  cases h
  exact ⟨ha, hb⟩

/-- What can be read has its nodes, and its first captive if it has one. -/
theorem Proper.nodes_of_read (hq : q.Proper) (hothers : q.others = []) {x : K}
    (h : q.read w = .ok x) : (∀ i ∈ q.nodeIds, w.isNode (some i)) ∧
      ∀ c, q.captives.head? = some c → w.isNode (some c.1) := by
  unfold read at h
  obtain ⟨p, hends, h⟩ := bind_eq_ok_iff.1 h
  obtain ⟨ha, hb⟩ := hq.of_ends_eq hends
  replace ha := isNode_of_position ha
  replace hb := isNode_of_position hb
  unfold Proper at hq
  unfold nodeIds pivot?
  cases hk : q.kind with
  | distance =>
    rw [hk] at hq
    simp [hothers, hq.2, ha, hb]
  | angle i =>
    rw [hk] at hq h
    obtain ⟨c, hc, -⟩ := bind_eq_ok_iff.1 h
    simp [hothers, hq.2, ha, hb, isNode_of_position hc]
  | rail =>
    rw [hk] at h
    refine ⟨by simp [hothers, ha, hb], fun d hd => ?_⟩
    obtain ⟨ds, hds⟩ := List.head?_eq_some_iff.1 hd
    rw [hds] at h
    obtain ⟨c, hc, -⟩ := bind_eq_ok_iff.1 h
    exact isNode_of_position hc
  | unknown =>
    rw [hk] at hq
    exact hq.elim
  | lacking name nodes =>
    rw [hk] at hq
    exact hq.elim

/-- Of its captives a reading needs the first only, and of its bounds nothing. -/
theorem read_of_head? {q' : Quantity K} (hq : ∃ captives springIds lower upper, q' =
      { q with captives := captives, springIds := springIds, lower := lower, upper := upper })
    (h : q'.captives.head? = q.captives.head?) : q'.read w = q.read w := by
  obtain ⟨captives, springIds, lower, upper, rfl⟩ := hq
  obtain ⟨id, kind, a, b, others, lo, hi, ids, held⟩ := q
  cases held with
  | nil =>
    obtain rfl := List.head?_eq_none_iff.1 h
    rfl
  | cons c cs =>
    obtain ⟨ds, rfl⟩ := List.head?_eq_some_iff.1 h
    cases kind <;> rfl

section

variable {lo hi lo' hi' : Option (Number K)} {clamped : Bool} {s s' : Spring K}

/-- A rail takes no bounds. -/
theorem Keeps.of_rail (hk : q.kind = .rail) (h : q.Keeps w lo hi clamped i s s') :
    q.Keeps w lo' hi' clamped i s s' := by
  unfold Keeps at h ⊢
  rw [hk] at h ⊢
  exact h

/-- Captives may go that are no nodes, as long as the nodes stay where they are. -/
theorem Keeps.of_captives {q' : Quantity K} (h : q.Keeps w lo hi clamped i s s')
    (hp : ∀ k, (t.node? k).map Node.position = (w.node? k).map Node.position)
    (hq : ∃ captives springIds lower upper, q' =
      { q with captives := captives, springIds := springIds, lower := lower, upper := upper })
    (hc : ∀ c ∈ q.captives, w.isNode (some c.1) → c ∈ q'.captives) :
    q'.Keeps t lo hi clamped i s s' := by
  obtain ⟨hposition, hkind, ha, hb⟩ : (∀ j, q'.position t j = q.position w j) ∧
      q'.kind = q.kind ∧ q'.a = q.a ∧ q'.b = q.b := by
    obtain ⟨captives, springIds, lower, upper, rfl⟩ := hq
    exact ⟨position_congr hp q, rfl, rfl, rfl⟩
  unfold Keeps at h ⊢
  rw [hkind, ha, hb]
  simp only [hposition]
  cases hk : q.kind with
  | rail =>
    rw [hk] at h
    obtain ⟨a, b, c, p, ha, hb, hmem, hp, e⟩ := h
    exact ⟨a, b, c, p, ha, hb, hc _ hmem (isNode_of_position hp), hp, e⟩
  | distance | angle p | unknown | lacking name nodes =>
    rw [hk] at h
    exact h

end

end Quantity

namespace Sketch

open Act

variable {K : Type} [Scalar K] {w t u : Sketch K} {r : Ref} {i : Id} {s : Ref}
  {b b' : Option (Limit K)}

/-! ### What a pruning leaves -/

/-- A quantity that could be read before is there and reads the same. -/
theorem Trimmed.read (hu : Trimmed w u) (h : w.Sound) (hbare : w.Bare) (htidy : u.Tidy)
    (hr : r ∈ w.declared) {x : K} (hx : (w.quantity r).read w.toScene = .ok x) :
    r ∈ u.declared ∧ (u.quantity r).read u.toScene = .ok x := by
  obtain ⟨hnodes, hfirst⟩ := (h.proper r hr).nodes_of_read (hbare r hr) hx
  have hru : r ∈ u.declared := (hu.mem_declared (hu.within htidy)).2 ⟨hr, hnodes⟩
  refine ⟨hru, ?_⟩
  rw [Quantity.read_congr hu.struck.map_position, Quantity.read_of_head? (hu.kept r hru), hx]
  exact hu.head?_captives h htidy hru hfirst

/-- What a bound came to before it comes to still: what it refers to could be read, so that it was
not opened. -/
theorem Trimmed.worth (hu : Trimmed w u) (h : w.Sound) (hbare : w.Bare) (htidy : u.Tidy)
    (hb : w.Backed b) (ho : Opened w u b b') {x : Option (Number K)} (hx : w.worth b = .ok x) :
    u.worth b' = .ok x := by
  match b, hx with
  | none, hx =>
    rcases ho with rfl | ⟨-, r, -, -, e⟩
    · exact hx
    · cases e
  | some (.literal n), hx =>
    rcases ho with rfl | ⟨-, r, -, -, e⟩
    · exact hx
    · cases e
  | some (.reference i), hx =>
    obtain ⟨r, hr, rfl⟩ := hb i rfl
    have hname := h.quantityRef?_id hr
    simp only [Sketch.worth, hname] at hx
    obtain ⟨y, hy, rfl⟩ := map_eq_ok_iff.1 hx
    obtain ⟨hru, hyu⟩ := hu.read h hbare htidy hr hy
    have hnameu : u.quantityRef? (some (w.quantity r).id) = some r := by
      rw [← hu.id_eq hru]
      exact hu.sound.quantityRef?_id hru
    rcases ho with rfl | ⟨-, r', hr', hru', e⟩
    · simp only [Sketch.worth, hnameu, hyu]
      rfl
    · -- only what is gone is not referred to any more
      have hid : (w.quantity r).id = (w.quantity r').id := by
        injection e with e
        injection e
      exact absurd (h.eq_of_id_eq hr hr' hid ▸ hru) hru'

/-! ### Springs that are as they have to be -/

/-- The spring `s` of the id `i` is as the quantity `r`, its owner, sets it. What the bounds of a
rail come to does not matter: it takes none. -/
structure Fitted (w : Sketch K) (r : Ref) (i : Id) (s : Ref) : Prop where
  owns : w.Owns r i
  named : w.springRef? (some i) = some s
  whole : w.Whole r
  set : ∃ lo hi, ((w.quantity r).kind ≠ .rail →
      w.worth (w.quantity r).lower = .ok lo ∧ w.worth (w.quantity r).upper = .ok hi) ∧
    (w.quantity r).Keeps w.toScene lo hi w.clamped i (w.spring s) (w.spring s)

namespace Fitted

/-- The owner is there after a pruning, and has not let go of the spring. -/
theorem owns_trimmed (hs : Fitted w r i s) (h : w.Sound) (hu : Trimmed w u) (htidy : u.Tidy) :
    u.Owns r i := by
  obtain ⟨hr, hi⟩ := hs.owns
  have hru : r ∈ u.declared := (hu.mem_declared (hu.within htidy)).2 ⟨hr, hs.whole⟩
  refine ⟨hru, ?_⟩
  have hsub : ∀ i ∈ (u.quantity r).springIds, i ∈ (w.quantity r).springIds := fun i hi =>
    (hu.owns r i ⟨hru, hi⟩).2
  have hkind : (u.quantity r).kind = (w.quantity r).kind := by
    obtain ⟨_, _, _, _, e⟩ := hu.kept r hru
    rw [e]
  rw [(h.proper r hr).springIds_eq (hu.sound.proper r hru) hkind hsub]
  split
  · next hk =>
    obtain ⟨lo, hi, -, hkeeps⟩ := hs.set
    unfold Quantity.Keeps at hkeeps
    rw [hk] at hkeeps
    obtain ⟨-, -, c, p, -, -, hc, hp, -⟩ := hkeeps
    exact List.mem_map.2 ⟨(c, i), (hu.captives r hru).2 _ hc (Quantity.isNode_of_position hp), rfl⟩
  · exact hi

/-- The owner still sets it as it is. -/
theorem keeps_trimmed (hs : Fitted w r i s) (h : w.Sound) (hbare : w.Bare) (hu : Trimmed w u)
    (htidy : u.Tidy) : u.Keeps r i (w.spring s) (w.spring s) := by
  obtain ⟨hru, -⟩ := hs.owns_trimmed h hu htidy
  obtain ⟨hr, -⟩ := hs.owns
  obtain ⟨lo, hi, hworth, hkeeps⟩ := hs.set
  have hclamped : u.clamped = w.clamped := congrArg Config.railsEnd hu.struck.config
  have hkept : ∀ lo hi, (w.quantity r).Keeps w.toScene lo hi w.clamped i (w.spring s) (w.spring s) →
      (u.quantity r).Keeps u.toScene lo hi u.clamped i (w.spring s) (w.spring s) := by
    intro lo hi hk
    rw [hclamped]
    exact hk.of_captives hu.struck.map_position (hu.kept r hru) (hu.captives r hru).2
  by_cases hk : (w.quantity r).kind = .rail
  · -- its bounds may have come to nothing before, and it goes by none of them
    obtain ⟨lo', hlo⟩ := exists_worth hu.sound htidy (u.quantity r).lower
    obtain ⟨hi', hhi⟩ := exists_worth hu.sound htidy (u.quantity r).upper
    exact ⟨lo', hi', hlo, hhi, hkept lo' hi' (hkeeps.of_rail hk)⟩
  · obtain ⟨hlo, hhi⟩ := hworth hk
    exact ⟨lo, hi, hu.worth h hbare htidy (h.lower r hr) (hu.lower r hru) hlo,
      hu.worth h hbare htidy (h.upper r hr) (hu.upper r hru) hhi, hkept lo hi hkeeps⟩

/-- A refresh leaves it as it is. -/
theorem refresh (hs : Fitted w r i s) (h : w.Sound) (hbare : w.Bare) :
    (refresh none).wp (fun _ t => s ∈ t.graph.listed ∧ t.spring s = w.spring s) w := by
  refine (refresh_stages h none).mono fun o t => ?_
  rintro ⟨u, v, x, y, ⟨hu, htidy⟩, hv, -, rfl, hnone⟩
  obtain ⟨-, rfl⟩ := hnone rfl
  have howns := hs.owns_trimmed h hu htidy
  have hnamed : u.springRef? (some i) = some s := (hu.named h howns).trans hs.named
  have hset := hv.set i (mem_ownedIds.2 ⟨r, howns⟩) s hnamed r howns
  rw [show u.spring s = w.spring s from hu.struck.spring s] at hset
  refine ⟨?_, hset.unique (hu.sound.captives_nodup howns.1) (hs.keeps_trimmed h hbare hu htidy)⟩
  show s ∈ y.graph.listed
  rw [hv.graph]
  exact (Scene.of_springRef?_eq_some hnamed).1

end Fitted

/-! ### Distances and angles -/

theorem Fitted.of_keeps (howns : w.Owns r i) (hnamed : w.springRef? (some i) = some s)
    (hwhole : w.Whole r) (hkeeps : w.Keeps r i (w.spring s) (w.spring s)) : Fitted w r i s := by
  obtain ⟨lo, hi, hlo, hhi, hkeeps⟩ := hkeeps
  exact ⟨howns, hnamed, hwhole, lo, hi, fun _ => ⟨hlo, hhi⟩, hkeeps⟩

/-- The springs of what a call declared are there, and they are as they have to be. -/
def Equipped (o : Except (Failure K) Ref) (t : Sketch K) : Prop :=
  ∀ r, o = .ok r → ∀ i ∈ (t.quantity r).springIds, ∃ s, Fitted t r i s

theorem equipped_error (e : Failure K) : Equipped (.error e) t := fun _ h => by cases h

theorem own_equipped (h : w.Sound) {kind : QuantityKind} {a b : Id} {lo hi : Option (Limit K)}
    (hargs : w.Admits kind a b lo hi) (e : Event K) : (own kind a b lo hi e).wp Equipped w := by
  refine wp_own_set h hargs e equipped_error fun v s u hv _ hu _ =>
    ⟨fun _ _ => equipped_error _, fun v' hset r hr i hown => ?_⟩
  subst hu
  cases hr
  let u := w.entering v (w.between kind a b lo hi)
  have hmem : w.quantities.fresh ∈ u.declared := mem_declare.2 (.inr rfl)
  have howns : (u.withScene v').Owns w.quantities.fresh i := ⟨hmem, hown⟩
  have hself : (u.withScene v').quantity w.quantities.fresh = w.between kind a b lo hi :=
    quantity_entering
  have hi : i ∈ [w.graph.nextSpring] := by rwa [hself] at hown
  obtain rfl := List.mem_singleton.1 hi
  have hnode : ∀ k, v'.node? k = u.node? k := fun k => by
    rw [Scene.node?, Scene.node?, hset.graph]
  have hreads : Reads u (u.withScene v') :=
    .withScene (fun k => by rw [hnode]) (congrArg Graph.config hset.graph)
  have hwhole : (u.withScene v').Whole w.quantities.fresh := fun j hj => by
    have := whole_entering hv hargs j hj
    rwa [Scene.isNode, ← hnode] at this
  refine ⟨w.springs.fresh, .of_keeps howns (hset.alike.springRef?.trans hv.named) hwhole ?_⟩
  exact hreads.keeps hmem (hset.set _ hi _ hv.named).again

theorem declareDistance_equipped (h : w.Sound) (a b : Key) (lower upper : BoundArg Ref K) :
    (declareDistance a b lower upper).wp Equipped w :=
  wp_declareDistance equipped_error fun _ _ _ _ _ e hargs _ _ => own_equipped h hargs e

theorem declareAngle_equipped (h : w.Sound) (a b pivot : Key) (lower upper : BoundArg Ref K) :
    (declareAngle a b pivot lower upper).wp Equipped w :=
  wp_declareAngle equipped_error fun _ _ _ _ _ e hargs _ _ => own_equipped h hargs e

/-! ### Rails and captives -/

/-- A captive's spring has to be at the seat of the captive. -/
theorem Fitted.of_seat {a b p : Point K} {n : Id} (h : w.Sound) (hbare : w.Bare)
    (hr : r ∈ w.declared) (hn : (n, i) ∈ (w.quantity r).captives)
    (hnamed : w.springRef? (some i) = some s)
    (ha : (w.quantity r).position w.toScene (w.quantity r).a = .ok a)
    (hb : (w.quantity r).position w.toScene (w.quantity r).b = .ok b)
    (hp : (w.quantity r).position w.toScene n = .ok p)
    (hs : w.spring s = { w.spring s with
      a := .point (Rail.seat p a b w.clamped).1
      railDirection := b - a
      atRailEnd := (Rail.seat p a b w.clamped).2 }) : Fitted w r i s := by
  have hproper := h.proper r hr
  have hk := hproper.rail_of_mem hn
  refine ⟨⟨hr, ?_⟩, hnamed, fun j hj => ?_, none, none, fun hne => absurd hk hne, ?_⟩
  · rw [((Quantity.proper_rail hk).1 hproper).1]
    exact List.mem_map.2 ⟨_, hn, rfl⟩
  · have hj : j = (w.quantity r).a ∨ j = (w.quantity r).b := by
      simpa [Quantity.nodeIds, Quantity.pivot?, hk, hbare r hr] using hj
    rcases hj with rfl | rfl
    · exact Quantity.isNode_of_position ha
    · exact Quantity.isNode_of_position hb
  · unfold Quantity.Keeps
    rw [hk]
    exact ⟨a, b, n, p, ha, hb, hn, hp, hs⟩

section

variable {a b n : Node K} {held : List (Node K)} {c : Option (Constants K)} {ka kb : Key}

theorem fitted_railed (hbare : w.Bare) (ht : Grown w (w.railed c a b held))
    (ha : w.node? ka = some a) (hb : w.node? kb = some b)
    (hheld : ∀ n ∈ held, w.node? (some n.id) = some n) {p : Node K × Nat} (hp : p ∈ held.zipIdx) :
    Fitted (w.railed c a b held) w.quantities.fresh (w.graph.nextSpring + p.2)
      (w.springs.size + p.2) := by
  obtain ⟨-, rfl⟩ := Scene.of_node?_eq_some ha
  obtain ⟨-, rfl⟩ := Scene.of_node?_eq_some hb
  let t := w.railed c a b held
  have hself : t.quantity w.quantities.fresh = w.railOver a b held := quantity_railed
  have hspring := spring_railed (w := w) (c := c) (a := a) (b := b) hp
  have hposition : ∀ (q : Quantity K) (m : Node K), w.node? (some m.id) = some m →
      q.position t.toScene m.id = .ok m.position := fun q m hm => by
    refine Quantity.position_of_map ?_
    rw [show t.node? (some m.id) = _ from node?_railed _, hm]
    rfl
  have hnamed : t.springRef? (some (w.graph.nextSpring + p.2)) = some (w.springs.size + p.2) := by
    refine ht.sound.scene.springRef?_iff.2 ⟨?_, ?_⟩
    · exact List.mem_append_right _ (List.mem_map.2 ⟨p, hp, rfl⟩)
    · show (t.spring _).id = _
      rw [hspring]
      rfl
  refine .of_seat ht.sound (ht.bare hbare) (n := p.1.id) (a := a.position) (b := b.position)
    (p := p.1.position) ?_ ?_ hnamed ?_ ?_ ?_ ?_
  · exact List.mem_append_right _ (List.mem_singleton_self _)
  · rw [hself]
    exact List.mem_map.2 ⟨p, hp, rfl⟩
  · rw [hself]
    exact hposition _ a ha
  · rw [hself]
    exact hposition _ b hb
  · exact hposition _ p.1 (hheld _ (List.fst_mem_of_mem_zipIdx hp))
  · rw [hspring]
    rfl

theorem declareRail_equipped (h : w.Sound) (hbare : w.Bare) (ka kb : Key) (ks : List Key) :
    (declareRail ka kb ks).wp Equipped w := by
  refine ((declareRail_railed h ka kb ks).and (declareRail_grown h ka kb ks)).mono fun o t => ?_
  rintro ⟨hrailed, ht⟩ r hr i hi
  obtain ⟨rfl, c, a, b, held, ha, hb, hheld, rfl⟩ := hrailed r hr
  rw [quantity_railed] at hi
  obtain ⟨p, hp, rfl⟩ := List.mem_map.1 hi
  exact ⟨_, fitted_railed hbare ht ha hb hheld hp⟩

/-- A node that is mounted gets its spring at its seat. -/
theorem fitted_mount {rail k : Key} (h : w.Sound) (hbare : w.Bare)
    (hm : w.Mounts rail k r a b n) (ht : Grown w t) (e : t = w.mount r (w.unplaced c a b n) n.id
      (Rail.seat n.position a.position b.position w.clamped).2) :
    Fitted t r w.graph.nextSpring w.springs.fresh := by
  subst e
  let seat := Rail.seat n.position a.position b.position w.clamped
  let t := w.mount r (w.unplaced c a b n) n.id seat.2
  obtain ⟨hr, -⟩ := of_quantityRef?_eq_some hm.named
  have hnode : w.node? (some n.id) = some n := (Scene.of_node?_eq_some hm.node).2 ▸ hm.node
  have hends : ∀ k ∈ (w.unplaced c a b n).endpoints, w.isNode k := by
    show ∀ k ∈ [some n.id], w.isNode k
    simpa using Scene.isNode_of_node? hnode
  have hv := Scene.entered h.scene hends
  obtain ⟨-, hcaptive, hnamed⟩ := recorded_hold h hr hm.free hv
    (Scene.alike_setSpring (r := w.springs.fresh)
      (s := { (((w.makeSpring _).enlist w.springs.fresh).spring w.springs.fresh) with
        atRailEnd := seat.2 }) rfl rfl rfl)
  have hself : t.quantity r = (w.quantity r).hold n.id w.graph.nextSpring :=
    quantity_changeQuantity_self _ (h.declared_lt r hr)
  have hposition : ∀ (q : Quantity K) (i : Id) (m : Node K), w.node? (some i) = some m →
      q.position t.toScene i = .ok m.position := fun q i m hm =>
    Quantity.position_of_map ((hv.places (some i)).trans (by rw [hm]; rfl))
  have hspring : t.spring w.springs.fresh = w.holder c a b n w.graph.nextSpring := by
    show t.springs.get _ = _
    rw [springs_mount]
    exact Arena.get_alloc_self
  refine .of_seat ht.sound (ht.bare hbare) (n := n.id) (a := a.position) (b := b.position)
    (p := n.position) hr hcaptive hnamed ?_ ?_ (hposition _ _ n hnode) ?_
  · rw [hself]
    exact hposition _ _ a hm.first
  · rw [hself]
    exact hposition _ _ b hm.second
  · rw [hspring]
    rfl

end

/-! ### The calls -/

/-- What is owned newly has a new spring, and a refresh leaves the new springs as they are. -/
def Steady (w t : Sketch K) : Prop :=
  (∀ r i, t.Owns r i → w.Owns r i ∨
    ∃ s, t.springRef? (some i) = some s ∧ s ∉ w.graph.listed) ∧
  (refresh none).wp (fun o u => o = .ok () ∧ ∀ s ∈ t.graph.listed, s ∉ w.graph.listed →
    s ∈ u.graph.listed ∧ u.spring s = t.spring s) t

theorem Grown.steady (ht : Grown w t) (h : w.Sound) (hbare : w.Bare)
    (hnew : ∀ s ∈ t.graph.listed, s ∉ w.graph.listed → ∃ r i, Fitted t r i s) : Steady w t := by
  constructor
  · intro r i hi
    refine (ht.owns r i hi).imp_right ?_
    rintro ⟨s, hs, hnamed, -⟩
    exact ⟨s, hnamed, fun hmem => absurd (h.scene.listed_lt s hmem) (Nat.not_lt.2 hs)⟩
  · refine ⟨(refresh_none ht.sound).1, fun s hs hsw => ?_⟩
    obtain ⟨r, i, hfitted⟩ := hnew s hs hsw
    exact hfitted.refresh ht.sound (ht.bare hbare)

/-- A new spring is one of the new quantity's, and those are as they have to be. -/
theorem wp_steady {x : Act K (Sketch K) Ref} (h : w.Sound) (hbare : w.Bare) (hx : x.wp Equipped w)
    (hext : x.wp (Extends w) w) (hgrown : x.wp (fun _ t => Grown w t) w) :
    x.wp (fun o t => (∃ r, o = .ok r) → Steady w t) w := by
  refine (hx.and (hext.and hgrown)).mono fun o t => ?_
  rintro ⟨ho, hext, ht⟩ ⟨r, hr⟩
  refine ht.steady h hbare fun s hs hsw => ?_
  obtain ⟨i, hi, hid⟩ := List.mem_map.1 (((hext r hr).scene.new s hs).resolve_left hsw)
  obtain ⟨s', hs'⟩ := ho r hr i hi
  have hnamed : t.springRef? (some i) = some s := ht.sound.scene.springRef?_iff.2 ⟨hs, hid.symm⟩
  cases hnamed.symm.trans hs'.named
  exact ⟨r, i, hs'⟩

theorem hold_steady (h : w.Sound) (hbare : w.Bare) (rail node : Key) :
    (hold rail node).wp (fun o t => o = .ok () → Steady w t) w := by
  have hcases : (hold rail node).wp (fun _ t => Grown w t → Steady w t) w := by
    refine wp_hold (fun _ ht => ht.steady h hbare fun s hs hsw => absurd hs hsw)
      fun r a b n hm ht => ht.steady h hbare fun s hs hsw => ?_
    obtain rfl := List.mem_singleton.1 ((List.mem_append.1 hs).resolve_left hsw)
    exact ⟨r, w.graph.nextSpring, fitted_mount h hbare hm ht rfl⟩
  exact (hcases.and (hold_grown h rail node)).mono fun _ _ ht _ => ht.1 ht.2

end Sketch

namespace Bench

open Act

/-- After every run, what makes springs sets them as the next refresh would: when a quantity of any
kind was declared or a captive was recorded, a refresh right after it leaves the new springs as
they are. -/
theorem steady_after_run {K : Type} [Scalar K] (c : Config K) (springs : Arena (Spring K))
    (quantities : Arena (Quantity K)) (ops : List (Op K)) (a b pivot rail node : Key)
    (lower upper : BoundArg Ref K) (captives : List Key) :
    let w := (after ops (empty c springs quantities)).toSketch
    (Sketch.declareDistance a b lower upper).wp
        (fun o t => (∃ r, o = .ok r) → Sketch.Steady w t) w ∧
      (Sketch.declareAngle a b pivot lower upper).wp
        (fun o t => (∃ r, o = .ok r) → Sketch.Steady w t) w ∧
      (Sketch.declareRail a b captives).wp (fun o t => (∃ r, o = .ok r) → Sketch.Steady w t) w ∧
      (Sketch.hold rail node).wp (fun o t => o = .ok () → Sketch.Steady w t) w := by
  intro w
  have h : w.Sound := sound_after c springs quantities ops
  have hbare : w.Bare := bare_after c springs quantities ops
  refine ⟨?_, ?_, ?_, Sketch.hold_steady h hbare rail node⟩
  · exact Sketch.wp_steady h hbare (Sketch.declareDistance_equipped h a b lower upper)
      (Sketch.declareDistance_extended h a b lower upper)
      (Sketch.declareDistance_grown h a b lower upper)
  · exact Sketch.wp_steady h hbare (Sketch.declareAngle_equipped h a b pivot lower upper)
      (Sketch.declareAngle_extended h a b pivot lower upper)
      (Sketch.declareAngle_grown h a b pivot lower upper)
  · exact Sketch.wp_steady h hbare (Sketch.declareRail_equipped h hbare a b captives)
      (Sketch.declareRail_extended h a b captives) (Sketch.declareRail_grown h a b captives)

end Bench

end Linkage
