import Linkage.Proofs.Sketch.Sound
import Linkage.Scene.Measure

/-!
# Measuring and keeping a quantity

To read a quantity changes nothing, and to keep it only sets springs in place (`impose_alike`).
Where its nodes are there a quantity can be read (`exists_read`) and kept, and `impose_spec` says
how each of its springs is set (`Quantity.Keeps`), whatever the other springs are.
-/

namespace Linkage.Scene

variable {K : Type} [Scalar K] {w t u : Scene K} {r : Ref} {i : Id} {ids ids' : List Id}
  {f g : Id → Spring K → Spring K → Prop}

/-- Only springs of these ids differ, each in the way that `f` says. -/
structure Reset (w t : Scene K) (ids : List Id) (f : Id → Spring K → Spring K → Prop) : Prop where
  alike : Alike w t
  graph : t.graph = w.graph
  size : t.springs.size = w.springs.size
  set : ∀ i ∈ ids, ∀ r, w.springRef? (some i) = some r → f i (w.spring r) (t.spring r)
  rest : ∀ r, (∀ i ∈ ids, w.springRef? (some i) ≠ some r) → t.spring r = w.spring r

namespace Reset

theorem refl (w : Scene K) : Reset w w [] f :=
  ⟨.refl w, rfl, rfl, by simp, fun _ _ => rfl⟩

theorem mono (h : Reset w t ids f) (hf : ∀ i ∈ ids, ∀ s s', f i s s' → g i s s') :
    Reset w t ids g :=
  { h with set := fun i hi r hr => hf i hi _ _ (h.set i hi r hr) }

/-- A spring has one id, so that other ids leave it alone. -/
theorem trans (h : Reset w t ids f) (h' : Reset t u ids' f) (hd : ∀ i ∈ ids, i ∉ ids') :
    Reset w u (ids ++ ids') f := by
  have hname : ∀ k, t.springRef? k = w.springRef? k := fun k => h.alike.springRef?
  have hone : ∀ i j r, w.springRef? (some i) = some r → w.springRef? (some j) = some r → i = j := by
    intro i j r hi hj
    have hi := (of_springRef?_eq_some hi).2
    have hj := (of_springRef?_eq_some hj).2
    exact Option.some.inj (hi.symm.trans hj)
  refine ⟨h.alike.trans h'.alike, h'.graph.trans h.graph, h'.size.trans h.size, ?_, ?_⟩
  · intro i hi r hr
    rcases List.mem_append.1 hi with hi | hi
    · have : u.spring r = t.spring r := h'.rest r fun j hj hjr => by
        rw [hname] at hjr
        exact hd i hi (hone i j r hr hjr ▸ hj)
      rw [this]
      exact h.set i hi r hr
    · have : t.spring r = w.spring r := h.rest r fun j hj hjr =>
        hd j hj (hone i j r hr hjr ▸ hi)
      rw [← this]
      exact h'.set i hi r ((hname _).trans hr)
  · intro r hr
    rw [h'.rest r fun i hi => ?_, h.rest r fun i hi => hr i (List.mem_append_left _ hi)]
    rw [hname]
    exact hr i (List.mem_append_right _ hi)

/-- The result is determined if the new springs are. -/
theorem unique (h : Reset w t ids f) (h' : Reset w u ids f)
    (hf : ∀ i ∈ ids, ∀ s s' s'', f i s s' → f i s s'' → s' = s'') : t = u := by
  have hspring : ∀ r, t.spring r = u.spring r := by
    intro r
    by_cases hset : ∃ i ∈ ids, w.springRef? (some i) = some r
    · obtain ⟨i, hi, hr⟩ := hset
      exact hf i hi _ _ _ (h.set i hi r hr) (h'.set i hi r hr)
    · rw [h.rest r fun i hi hr => hset ⟨i, hi, hr⟩, h'.rest r fun i hi hr => hset ⟨i, hi, hr⟩]
  have hsprings : t.springs = u.springs :=
    Arena.ext (h.size.trans h'.size.symm) fun r _ => hspring r
  have hgraph : t.graph = u.graph := h.graph.trans h'.graph.symm
  cases t
  cases hsprings
  cases hgraph
  rfl

/-- There is no spring of this id. -/
theorem absent (hi : w.springRef? (some i) = none) : Reset w w [i] f := by
  refine ⟨.refl w, rfl, rfl, fun j hj r hr => ?_, fun _ _ => rfl⟩
  rw [List.mem_singleton.1 hj, hi] at hr
  cases hr

theorem setSpring {s : Spring K} (h : w.Sound) (hi : w.springRef? (some i) = some r)
    (hid : s.id = (w.spring r).id) (hk : s.kind = (w.spring r).kind)
    (he : s.endpoints = (w.spring r).endpoints) (hf : f i (w.spring r) s) :
    Reset w (w.setSpring r s) [i] f := by
  have hr : r < w.springs.size := h.listed_lt r (of_springRef?_eq_some hi).1
  refine ⟨alike_setSpring hid hk he, rfl, Arena.size_set, fun j hj r' hr' => ?_, fun r' hr' => ?_⟩
  · rw [List.mem_singleton.1 hj, hi] at hr'
    cases hr'
    rw [spring_setSpring_self hr, List.mem_singleton.1 hj]
    exact hf
  · refine spring_setSpring_ne ?_
    rintro rfl
    exact hr' i (by simp) hi

end Reset

end Linkage.Scene

namespace Linkage.Quantity

open Act Scene

variable {K : Type} [Scalar K] {w t : Scene K} {q : Quantity K} {i : Id}

/-! ### Names and joints stay -/

/-- Whatever the writes to single springs keep is kept when a quantity is imposed. -/
theorem impose_keep {I : Scene K → Prop} (h : I w) {lower upper : Option (Number K)}
    {clamped : Bool}
    (hbound : q.kind = .distance ∨ (∃ p, q.kind = .angle p) → ∀ lower upper,
      (forEach (boundSpring · lower upper) (q.owned w)).wp (fun _ t => I t) w)
    (hlead : ∀ a b c i t, I t → (q.lead a b clamped c i).wp (fun _ t' => I t') t) :
    (q.impose lower upper clamped).wp (fun _ t => I t) w := by
  unfold impose
  rw [wp_bind, wp_read, next_ok]
  refine wp_bind_check rfl h fun p => ?_
  cases hk : q.kind with
  | distance => exact hbound (.inl hk) lower upper
  | angle i => exact wp_bind_check rfl h fun c => hbound (.inr ⟨i, hk⟩) _ _
  | rail => exact wp_forEach h fun c _ t ht => hlead p.1 p.2 c.1 c.2 t ht
  | unknown => exact h
  | lacking name nodes => exact h

/-- A captive's spring is moved in place, if it is there to be moved. -/
theorem lead_writes (q : Quantity K) (w : Scene K) (a b : Point K) (clamped : Bool)
    (captive spring : Id) :
    (q.lead a b clamped captive spring).wp
      (fun _ t => t = w ∨ ∃ r s, t = w.setSpring r s ∧ s.id = (w.spring r).id ∧
        s.kind = (w.spring r).kind ∧ s.endpoints = (w.spring r).endpoints ∧
        s.lower = (w.spring r).lower ∧ s.upper = (w.spring r).upper) w := by
  unfold lead
  rw [wp_bind, wp_read, next_ok]
  cases hr : w.springRef? (some spring) with
  | none => exact .inl rfl
  | some r =>
    refine wp_bind_check (I := fun t => t = w ∨ _) rfl (.inl rfl) fun p => ?_
    rw [wp_bind, wp_ofExcept]
    cases hm : (w.spring r).movePoint (.ok (Rail.seat p a b clamped).1) with
    | error e => exact .inl rfl
    | ok s =>
      obtain ⟨hi, hk, he, hlo, hhi⟩ := movePoint_keeps hm
      exact .inr ⟨r, _, rfl, hi, hk, he, hlo, hhi⟩

/-- Names and joints stay, whether or not the quantity can be kept. -/
theorem impose_alike (q : Quantity K) (w : Scene K) (lower upper : Option (Number K))
    (clamped : Bool) : (q.impose lower upper clamped).wp (fun _ t => Alike w t) w := by
  refine impose_keep (.refl w) (fun _ lower upper => ?_) fun a b c i t ht => ?_
  · exact wp_forEach (.refl w) fun r _ t ht =>
      (boundSpring_alike t r lower upper).mono fun _ _ => ht.trans
  · refine (lead_writes q t a b clamped c i).mono fun _ t' => ?_
    rintro (rfl | ⟨r, s, rfl, hi, hk, he, -⟩)
    · exact ht
    · exact ht.trans (alike_setSpring hi hk he)

/-- Only a distance or an angle sets bounds, and the springs that it owns are no rail's. -/
theorem impose_spared (w : Scene K) (lower upper : Option (Number K)) (clamped : Bool)
    (hm : ∀ i ∈ q.springIds, ∀ r, w.springRef? (some i) = some r → q.Made i (w.spring r)) :
    (q.impose lower upper clamped).wp (fun _ t => Spared w t) w := by
  refine impose_keep (.refl w) (fun hk lower upper => ?_) fun a b c i t ht => ?_
  · have hkind : ∀ r ∈ q.owned w, (w.spring r).kind ≠ .rail := by
      intro r hr
      obtain ⟨i, hi, hir⟩ := List.mem_filterMap.1 hr
      have hmade := hm i hi r hir
      unfold Made at hmade
      rcases hk with hk | ⟨p, hk⟩ <;> rw [hk] at hmade <;> rw [hmade.1] <;> decide
    refine (wp_forEach (I := fun t => ∀ r, (w.spring r).kind = .rail → t.spring r = w.spring r)
      (fun _ _ => rfl) fun r hr t ht r' hk' => ?_).mono fun _ t => .of_eq
    have hne : r' ≠ r := fun e => hkind r hr (e ▸ hk')
    exact (spring_setSpring_ne hne).trans (ht r' hk')
  · refine (lead_writes q t a b clamped c i).mono fun _ t' => ?_
    rintro (rfl | ⟨r, s, rfl, -, hk, -, hlo, hhi⟩)
    · exact ht
    · exact ht.trans (.setSpring fun hk' => ⟨hk.trans hk', hlo, hhi⟩)

/-! ### Reading -/

omit [Scalar K] in
theorem exists_position (q : Quantity K) (h : w.isNode (some i)) : ∃ p, q.position w i = .ok p := by
  obtain ⟨n, hn⟩ := Option.isSome_iff_exists.1 h
  exact ⟨n.position, by rw [position, hn]⟩

omit [Scalar K] in
/-- What is read depends on where the nodes are, and on nothing else. -/
theorem position_congr (h : ∀ k, (t.node? k).map Node.position = (w.node? k).map Node.position)
    (q : Quantity K) (i : Id) : q.position t i = q.position w i := by
  have := h (some i)
  unfold position
  cases ht : t.node? (some i) <;> cases hw : w.node? (some i) <;> simp_all

omit [Scalar K] in
theorem ends_congr (h : ∀ k, (t.node? k).map Node.position = (w.node? k).map Node.position)
    (q : Quantity K) : q.ends t = q.ends w := by
  unfold ends
  simp only [position_congr h]

theorem read_congr (h : ∀ k, (t.node? k).map Node.position = (w.node? k).map Node.position)
    (q : Quantity K) : q.read t = q.read w := by
  unfold read
  simp only [ends_congr h, position_congr h]

omit [Scalar K] in
theorem Proper.mem_nodeIds (h : q.Proper) : q.a ∈ q.nodeIds ∧ q.b ∈ q.nodeIds := by
  unfold Proper at h
  unfold nodeIds
  split at h <;> simp_all

omit [Scalar K] in
theorem Proper.ends_eq (h : q.Proper) {a b : Point K} (ha : q.position w q.a = .ok a)
    (hb : q.position w q.b = .ok b) : q.ends w = .ok (a, b) := by
  unfold Proper at h
  unfold ends
  split at h <;> simp_all [bind, Except.bind, pure, Except.pure]

section

variable {a b c : Point K} (ha : q.position w q.a = .ok a) (hb : q.position w q.b = .ok b)

include ha hb

theorem read_distance (hk : q.kind = .distance) : q.read w = .ok (Point.distance a b) := by
  simp [read, ends, hk, ha, hb, bind, Except.bind, pure, Except.pure]

theorem read_angle {p : Id} (hk : q.kind = .angle p) (hc : q.position w p = .ok c) :
    q.read w =
      .ok (Triangle.angle (arms a b c).1 (arms a b c).2 (Point.distance a b)) := by
  simp [read, ends, hk, ha, hb, hc, bind, Except.bind, pure, Except.pure]

theorem read_rail_nil (hk : q.kind = .rail) (hq : q.captives = []) : q.read w = .ok 0.0 := by
  simp [read, ends, hk, ha, hb, hq, bind, Except.bind, pure, Except.pure]

theorem read_rail_cons {d : Id × Id} {ds : List (Id × Id)} (hk : q.kind = .rail)
    (hq : q.captives = d :: ds) (hc : q.position w d.1 = .ok c) :
    q.read w = .ok (Point.along c a b) := by
  simp [read, ends, hk, ha, hb, hq, hc, bind, Except.bind, pure, Except.pure]

end

/-- A quantity whose nodes are there can be read. -/
theorem exists_read (h : q.Proper) (hn : ∀ i ∈ q.nodeIds, w.isNode (some i))
    (hc : ∀ c ∈ q.captives, w.isNode (some c.1)) : ∃ x, q.read w = .ok x := by
  obtain ⟨a, ha⟩ := exists_position q (hn _ h.mem_nodeIds.1)
  obtain ⟨b, hb⟩ := exists_position q (hn _ h.mem_nodeIds.2)
  cases hk : q.kind with
  | distance => exact ⟨_, read_distance ha hb hk⟩
  | angle p =>
    obtain ⟨c, hp⟩ := exists_position q (hn p (by simp [nodeIds, hk, pivot?]))
    exact ⟨_, read_angle ha hb hk hp⟩
  | rail =>
    cases hq : q.captives with
    | nil => exact ⟨_, read_rail_nil ha hb hk hq⟩
    | cons d ds =>
      obtain ⟨c, hp⟩ := exists_position q (hc d (by simp [hq]))
      exact ⟨_, read_rail_cons ha hb hk hq hp⟩
  | unknown => simp [Proper, hk] at h
  | lacking name nodes => simp [Proper, hk] at h

/-! ### Where a spring runs -/

section

variable {j : Id} {a b : Point K} {s : Spring K}

omit [Scalar K] in
theorem position_of_position (h : q.position w i = .ok a) : w.position (some i) = .ok a := by
  unfold position at h
  unfold Scene.position
  cases hn : w.node? (some i) with
  | none =>
    rw [hn] at h
    cases h
  | some n =>
    rw [hn] at h
    exact h

omit [Scalar K] in
theorem ends_pair (he : s.endpoints = [some i, some j]) (ha : q.position w i = .ok a)
    (hb : q.position w j = .ok b) : w.ends s = .ok (a, b) := by
  unfold Spring.endpoints at he
  split at he
  · simp at he
  · next k hk =>
    obtain ⟨hki, hj⟩ : k = i ∧ s.b = some j := by simpa using he
    simp only [Scene.ends, hk, hki, hj, position_of_position ha, position_of_position hb]
    rfl

omit [Scalar K] in
theorem ends_point (he : s.endpoints = [some j]) (ha : s.a = .point a)
    (hb : q.position w j = .ok b) : w.ends s = .ok (a, b) := by
  have hj : s.b = some j := by simpa [Spring.endpoints, ha] using he
  simp only [Scene.ends, ha, hj, position_of_position hb]
  rfl

end

/-! ### Keeping -/

/-- `s'` is the spring `s` of the id `i` as the quantity sets it between two values: by the values
themselves, by the chords for them between the arms, or at the seat of its captive on the rail. -/
def Keeps (q : Quantity K) (w : Scene K) (lo hi : Option (Number K)) (clamped : Bool) (i : Id)
    (s s' : Spring K) : Prop :=
  match q.kind with
  | .distance => s' = s.withBounds lo hi
  | .angle p => ∃ a b c, q.position w q.a = .ok a ∧ q.position w q.b = .ok b ∧
      q.position w p = .ok c ∧ s' = s.withBounds (chord (arms a b c) lo) (chord (arms a b c) hi)
  | .rail => ∃ a b c p, q.position w q.a = .ok a ∧ q.position w q.b = .ok b ∧
      (c, i) ∈ q.captives ∧ q.position w c = .ok p ∧
      s' = { s with a := .point (Rail.seat p a b clamped).1, railDirection := b - a,
                    atRailEnd := (Rail.seat p a b clamped).2 }
  | .unknown | .lacking .. => False

theorem Keeps.constants {lo hi : Option (Number K)} {clamped : Bool} {s s' : Spring K}
    (h : q.Keeps w lo hi clamped i s s') : s'.constants = s.constants := by
  unfold Keeps at h
  split at h
  · rw [h]
    rfl
  · obtain ⟨_, _, _, -, -, -, rfl⟩ := h
    rfl
  · obtain ⟨_, _, _, _, -, -, -, -, rfl⟩ := h
    rfl
  · exact h.elim
  · exact h.elim

/-- The one spring of a distance or an angle gets its bounds. -/
theorem forEach_boundSpring {f : Id → Spring K → Spring K → Prop} (h : w.Sound)
    (hs : q.springIds = [i]) (lo hi : Option (Number K)) (hf : ∀ s, f i s (s.withBounds lo hi)) :
    (forEach (boundSpring · lo hi) (q.owned w)).wp
      (fun o t => o = .ok () ∧ Reset w t q.springIds f) w := by
  rw [owned, hs]
  cases hr : w.springRef? (some i) with
  | none =>
    simp only [List.filterMap_cons, List.filterMap_nil, hr]
    exact ⟨rfl, .absent hr⟩
  | some r =>
    simp only [List.filterMap_cons, List.filterMap_nil, hr]
    exact ⟨rfl, .setSpring h hr rfl rfl rfl (hf _)⟩

omit [Scalar K] in
theorem exists_point {s : Spring K} {c : Id} (h : s.endpoints = [some c]) :
    ∃ p, s.a = .point p := by
  unfold Spring.endpoints at h
  split at h
  · exact ⟨_, by assumption⟩
  · cases h

/-- A captive that is there is led to its seat. -/
theorem lead_spec (h : w.Sound) {a b p : Point K} {c : Id} (clamped : Bool)
    (hp : q.position w c = .ok p) {f : Id → Spring K → Spring K → Prop}
    (hm : ∀ r, w.springRef? (some i) = some r → ∃ x, (w.spring r).a = .point x)
    (hf : ∀ s, f i s { s with a := .point (Rail.seat p a b clamped).1, railDirection := b - a,
                              atRailEnd := (Rail.seat p a b clamped).2 }) :
    (q.lead a b clamped c i).wp (fun o t => o = .ok () ∧ Reset w t [i] f) w := by
  unfold lead
  rw [wp_bind, wp_read, next_ok]
  cases hr : w.springRef? (some i) with
  | none => exact ⟨rfl, .absent hr⟩
  | some r =>
    obtain ⟨x, hx⟩ := hm r hr
    have hmove : (w.spring r).movePoint (.ok (Rail.seat p a b clamped).1) =
        .ok { w.spring r with a := .point (Rail.seat p a b clamped).1 } := by
      rw [Spring.movePoint, hx]
      rfl
    have hend : Spring.endpoints { w.spring r with a := .point (Rail.seat p a b clamped).1 } =
        (w.spring r).endpoints := (movePoint_keeps hmove).2.2.1
    simp only [wp_bind, wp_ofExcept, hp, next_ok, hmove]
    exact ⟨rfl, .setSpring h hr rfl rfl hend (hf _)⟩

/-- A quantity whose nodes are there is kept: its springs are set, and no others. -/
theorem impose_spec (h : w.Sound) (hq : q.Proper) (hnodup : q.springIds.Nodup)
    (hn : ∀ i ∈ q.nodeIds, w.isNode (some i)) (hc : ∀ c ∈ q.captives, w.isNode (some c.1))
    (hm : ∀ i ∈ q.springIds, ∀ r, w.springRef? (some i) = some r → q.Made i (w.spring r))
    (lo hi : Option (Number K)) (clamped : Bool) :
    (q.impose lo hi clamped).wp
      (fun o t => o = .ok () ∧ Reset w t q.springIds (q.Keeps w lo hi clamped)) w := by
  obtain ⟨a, ha⟩ := exists_position q (hn _ hq.mem_nodeIds.1)
  obtain ⟨b, hb⟩ := exists_position q (hn _ hq.mem_nodeIds.2)
  unfold impose
  simp only [wp_bind, wp_read, next_ok, wp_ofExcept, hq.ends_eq ha hb]
  unfold Proper at hq
  cases hk : q.kind with
  | distance =>
    rw [hk] at hq
    obtain ⟨⟨i, hs⟩, -⟩ := hq
    refine forEach_boundSpring h hs lo hi fun s => ?_
    rw [Keeps, hk]
  | angle p =>
    rw [hk] at hq
    obtain ⟨⟨i, hs⟩, -⟩ := hq
    obtain ⟨c, hp⟩ := exists_position q (hn p (by simp [nodeIds, hk, pivot?]))
    simp only [wp_bind, wp_ofExcept, hp, next_ok]
    refine forEach_boundSpring h hs _ _ fun s => ?_
    rw [Keeps, hk]
    exact ⟨a, b, c, ha, hb, hp, rfl⟩
  | rail =>
    rw [hk] at hq
    obtain ⟨hs, -, -⟩ := hq
    rw [hs]
    refine wp_forEach_ok (I := fun done t => Reset w t (done.map Prod.snd)
      (q.Keeps w lo hi clamped)) (.refl w) ?_
    rintro done ⟨c, i⟩ rest hl t ht
    have hmem : (c, i) ∈ q.captives := by simp [hl]
    have hown : i ∈ q.springIds := hs ▸ List.mem_map.2 ⟨_, hmem, rfl⟩
    obtain ⟨p, hp⟩ := exists_position q (hc _ hmem)
    have hp' : q.position t c = .ok p := by
      rw [← hp, position, position, node?, node?, ht.graph]
    refine (lead_spec (f := q.Keeps w lo hi clamped) (h.alike ht.alike) clamped hp'
      (fun r hr => ?_) fun s => ?_).mono ?_
    · -- the spring at hand has not been touched in the rounds before
      rw [ht.alike.springRef?] at hr
      have hr' := (of_springRef?_eq_some hr).1
      obtain ⟨-, d, -, he⟩ := (made_rail hk).1 (hm i hown r hr)
      exact exists_point ((ht.alike.endpoints r hr').trans he)
    · rw [Keeps, hk]
      exact ⟨a, b, c, p, ha, hb, hmem, hp, rfl⟩
    · rintro o t' ⟨rfl, ht'⟩
      refine ⟨rfl, ?_⟩
      rw [List.map_append]
      refine ht.trans ht' fun j hj hji => ?_
      have hnodup' : (done.map Prod.snd ++ i :: rest.map Prod.snd).Nodup := by
        simpa [hs, hl] using hnodup
      exact List.disjoint_of_nodup_append hnodup' hj (by simp [List.mem_singleton.1 hji])
  | unknown =>
    rw [hk] at hq
    exact hq.elim
  | lacking name nodes =>
    rw [hk] at hq
    exact hq.elim

end Linkage.Quantity
