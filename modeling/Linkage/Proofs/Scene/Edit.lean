import Linkage.Proofs.Scene.Change
import Linkage.Scene.Edit

/-!
# Editing keeps a scene sound

What each operation of `Linkage.Scene.Edit` does to a scene, whether it succeeds or fails. Look-ups
and checks change nothing; a failing operation leaves the scene sound.

`Scene.Struck w t` says that nothing but springs was struck out, which is what removals do:
`forEach_deleteListed` is the one loop behind removed nodes and swept springs.
-/

namespace Linkage

variable {K : Type}

/-- With the constants that the settings have for springs of its kind. -/
def SpringSpec.Supplied (c : SpringSpec K) (config : Config K) : Prop :=
  c.constants = config.constants c.kind

/-- With the constants that the settings have for springs of its kind. -/
def Spring.Supplied (s : Spring K) (config : Config K) : Prop :=
  s.constants = config.constants s.kind

theorem Spring.Supplied.congr {s t : Spring K} {config : Config K} (h : s.Supplied config)
    (hk : t.kind = s.kind) (hc : t.constants = s.constants) : t.Supplied config := by
  unfold Supplied
  rw [hk, hc]
  exact h

namespace Scene

open Act

variable [Scalar K] {w t u : Scene K} {k l : Key} {r : Ref} {i : Id}

/-! ### Checks -/

omit [Scalar K] in
theorem wp_needNode {Q : Except (Failure K) (Node K) → Scene K → Prop} :
    (needNode k).wp Q w ↔
      match w.node? k with
      | some n => Q (.ok n) w
      | none => Q (.error (.noSuchNode k)) w := by
  unfold needNode
  rw [wp_bind, wp_read, next_ok]
  cases w.node? k <;> exact Iff.rfl

omit [Scalar K] in
/-- Nothing changes, and all nodes of the list are there if it succeeds. -/
theorem needNodes_spec (w : Scene K) (ks : List Key) :
    (needNodes ks).wp (fun o t => t = w ∧ (o = .ok () → ∀ k ∈ ks, w.isNode k)) w := by
  unfold needNodes
  induction ks with
  | nil => exact ⟨rfl, by simp⟩
  | cons k ks ih =>
    rw [wp_forEach_cons, wp_bind, wp_needNode]
    cases h : w.node? k with
    | none => exact ⟨rfl, by simp⟩
    | some n =>
      simp only [next_ok, wp_pure]
      refine ih.mono fun o t ht => ⟨ht.1, fun e => ?_⟩
      exact List.forall_mem_cons.2 ⟨isNode_of_node? h, ht.2 e⟩

omit [Scalar K] in
theorem needNodes_ok {ks : List Key} (h : ∀ k ∈ ks, w.isNode k) :
    (needNodes ks).wp (fun o t => o = .ok () ∧ t = w) w := by
  unfold needNodes
  induction ks with
  | nil => exact ⟨rfl, rfl⟩
  | cons k ks ih =>
    obtain ⟨n, hn⟩ := Option.isSome_iff_exists.1 (h k (by simp))
    rw [wp_forEach_cons, wp_bind, wp_needNode, hn]
    exact ih fun k' hk' => h k' (by simp [hk'])

omit [Scalar K] in
theorem wp_constants {kind : SpringKind}
    {Q : Except (Failure K) (Option (Constants K)) → Scene K → Prop} :
    (constants kind).wp Q w ↔ Q (.ok (w.graph.config.constants kind)) w :=
  Iff.rfl

/-! ### Springs come -/

/-- The spring is listed in the end, or nothing happened. -/
theorem enterSpring_spec (h : w.Sound) (r : Ref) :
    (enterSpring r).wp
      (fun _ t => t = w ∨
        (r ∉ w.graph.listed ∧ (∀ k ∈ (w.spring r).endpoints, w.isNode k) ∧ t = w.enlist r)) w := by
  have htail : r ∉ w.graph.listed →
      (needNodes (w.spring r).endpoints).wp
        (next (fun _ => do
          change (·.enlist r)
          report (.springAdded w.graph.nextSpring))
          (fun _ t => t = w ∨
            (r ∉ w.graph.listed ∧ (∀ k ∈ (w.spring r).endpoints, w.isNode k) ∧
              t = w.enlist r))) w := fun hr => by
    refine (needNodes_spec w _).mono fun o t => ?_
    rintro ⟨rfl, ho⟩
    cases o with
    | error e => exact .inl rfl
    | ok _ => exact .inr ⟨hr, ho rfl, rfl⟩
  unfold enterSpring
  simp only [wp_bind, wp_read, wp_report, next_ok]
  cases hid : (w.spring r).id with
  | none =>
    rw [wp_bind]
    refine htail fun hr => ?_
    obtain ⟨i, hi, -⟩ := h.spring_lt r hr
    cases hid.symm.trans hi
  | some i =>
    simp only [wp_ite, wp_bind]
    split
    · exact .inl rfl
    · next hne => exact htail fun hr => hne (h.springRef?_iff.2 ⟨hr, hid⟩)

/-- A new spring is listed under the next id; where that fails nothing happened. -/
theorem enterNew_spec (w : Scene K) (c : SpringSpec K) :
    (enterNew c).wp
      (fun o t => match o with
        | .error _ => t = w
        | .ok r => r = w.springs.fresh ∧ ∃ s, c.build = .ok s ∧
            (∀ k ∈ s.endpoints, w.isNode k) ∧ t = (w.makeSpring s).enlist r) w := by
  unfold enterNew
  simp only [wp_bind, wp_ofExcept]
  cases hs : c.build with
  | error e => exact rfl
  | ok s =>
    simp only [next_ok, wp_bind, wp_report]
    refine (needNodes_spec w _).mono fun o t => ?_
    rintro ⟨rfl, ho⟩
    cases o with
    | error e => exact rfl
    | ok _ => exact ⟨rfl, s, rfl, ho rfl, rfl⟩

/-- A spring that can be made, between nodes that are there, is made. -/
theorem enterNew_ok {c : SpringSpec K} {s : Spring K} (hs : c.build = .ok s)
    (hk : ∀ k ∈ s.endpoints, w.isNode k) :
    (enterNew c).wp
      (fun o t => o = .ok w.springs.fresh ∧ t = (w.makeSpring s).enlist w.springs.fresh) w := by
  unfold enterNew
  simp only [wp_bind, wp_ofExcept, hs, next_ok, wp_report]
  refine (needNodes_ok hk).mono fun o t => ?_
  rintro ⟨rfl, rfl⟩
  exact ⟨rfl, rfl⟩

theorem spring_makeSpring (w : Scene K) (s : Spring K) :
    (w.makeSpring s).spring w.springs.fresh = s :=
  Arena.get_alloc_self

theorem onward_enter (h : w.Sound) {s : Spring K} (hs : ∀ k ∈ s.endpoints, w.isNode k) :
    Onward w ((w.makeSpring s).enlist w.springs.fresh) := by
  have hm := (Onward.refl h).alike (alike_makeSpring h s)
  refine hm.trans (onward_enlist (fun k hk => ?_) hm.sound fun hr => ?_)
  · rw [spring_makeSpring] at hk
    exact hs k hk
  · exact Nat.lt_irrefl _ (h.listed_lt _ hr)

/-- The spring was made and listed under the next id; the other names stay. -/
structure Entered (w t : Scene K) (s : Spring K) : Prop where
  onward : Onward w t
  kept : ∀ k r, w.springRef? k = some r → t.springRef? k = some r
  lt : w.graph.nextSpring < t.graph.nextSpring
  named : t.springRef? (some w.graph.nextSpring) = some w.springs.fresh
  spring : t.spring w.springs.fresh = { s with id := some w.graph.nextSpring }
  rest : ∀ r < w.springs.size, t.spring r = w.spring r
  places : ∀ k, (t.node? k).map Node.position = (w.node? k).map Node.position

theorem entered (h : w.Sound) {s : Spring K} (hs : ∀ k ∈ s.endpoints, w.isNode k) :
    Entered w ((w.makeSpring s).enlist w.springs.fresh) s := by
  let t := (w.makeSpring s).enlist w.springs.fresh
  have ht : Onward w t := onward_enter h hs
  have hself : t.spring w.springs.fresh = { s with id := some w.graph.nextSpring } := by
    have he : ∀ k ∈ ((w.makeSpring s).spring w.springs.fresh).endpoints,
        (w.makeSpring s).isNode k := by
      rw [spring_makeSpring]
      exact hs
    have := spring_enlist_self he
    rwa [spring_makeSpring] at this
  have hlisted : t.graph.listed = w.graph.listed ++ [w.springs.fresh] := rfl
  have hrest : ∀ r < w.springs.size, t.spring r = w.spring r := fun r hlt =>
    (spring_enlist_ne (Nat.ne_of_lt hlt)).trans (Arena.get_alloc_of_lt hlt)
  refine ⟨ht, fun k r hk => ?_, Int.lt_succ _, ?_, hself, hrest,
    position_enlist (w.makeSpring s) w.springs.fresh⟩
  · obtain ⟨hr, hid⟩ := of_springRef?_eq_some hk
    have hold : t.spring r = w.spring r := hrest r (h.listed_lt r hr)
    exact ht.sound.springRef?_iff.2 ⟨by simp [hlisted, hr], hold ▸ hid⟩
  · exact ht.sound.springRef?_iff.2 ⟨by simp [hlisted], by rw [hself]⟩

theorem enterNew_onward (h : w.Sound) (c : SpringSpec K) :
    (enterNew c).wp (fun _ t => Onward w t) w := by
  refine (enterNew_spec w c).mono fun o t ht => ?_
  cases o with
  | error e =>
    rw [show t = w from ht]
    exact .refl h
  | ok r =>
    obtain ⟨rfl, s, -, hs, rfl⟩ := ht
    exact onward_enter h hs

theorem enterSpring_onward (h : w.Sound) (r : Ref) :
    (enterSpring r).wp (fun _ t => Onward w t) w := by
  refine (enterSpring_spec h r).mono fun _ t => ?_
  rintro (ht | ⟨hr, hk, ht⟩) <;> rw [ht]
  · exact .refl h
  · exact onward_enlist hk h hr

/-! ### Springs go -/

/-- Nothing but springs was struck out: nodes stay where they are, and no spring changes. -/
structure Struck (w t : Scene K) : Prop where
  springs : t.springs = w.springs
  config : t.graph.config = w.graph.config
  connections : t.graph.connections = w.graph.connections
  listed : t.graph.listed.Sublist w.graph.listed
  places : (t.graph.nodes.map fun n => { n with springIds := [] }) =
    w.graph.nodes.map fun n => { n with springIds := [] }
  nextNode : t.graph.nextNode = w.graph.nextNode
  nextSpring : t.graph.nextSpring = w.graph.nextSpring

namespace Struck

omit [Scalar K] in
theorem refl (w : Scene K) : Struck w w := ⟨rfl, rfl, rfl, .refl _, rfl, rfl, rfl⟩

omit [Scalar K] in
theorem trans (h : Struck w t) (h' : Struck t u) : Struck w u where
  springs := h'.springs.trans h.springs
  config := h'.config.trans h.config
  connections := h'.connections.trans h.connections
  listed := h'.listed.trans h.listed
  places := h'.places.trans h.places
  nextNode := h'.nextNode.trans h.nextNode
  nextSpring := h'.nextSpring.trans h.nextSpring

theorem spring (h : Struck w t) (r : Ref) : t.spring r = w.spring r := congrArg (·.get r) h.springs

omit [Scalar K] in
theorem node? (h : Struck w t) (k : Key) :
    (t.node? k).map (fun n => { n with springIds := [] }) =
      (w.node? k).map fun n => { n with springIds := [] } := by
  have key : ∀ w : Scene K, (w.node? k).map (fun n => { n with springIds := [] }) =
      (w.graph.nodes.map fun n => { n with springIds := [] }).find? fun n => some n.id == k := by
    intro w
    rw [List.find?_map]
    rfl
  rw [key, key, h.places]

omit [Scalar K] in
theorem map_position (h : Struck w t) (k : Key) :
    (t.node? k).map Node.position = (w.node? k).map Node.position := by
  have := congrArg (Option.map Node.position) (h.node? k)
  rwa [Option.map_map, Option.map_map] at this

omit [Scalar K] in
theorem isNode (h : Struck w t) (k : Key) : t.isNode k = w.isNode k := by
  have := congrArg Option.isSome (h.node? k)
  simpa [Scene.isNode] using this

omit [Scalar K] in
theorem places_filter (h : Struck w t) (k : Key) :
    ((t.graph.nodes.filter fun n => some n.id != k).map fun n => { n with springIds := [] }) =
      (w.graph.nodes.filter fun n => some n.id != k).map fun n => { n with springIds := [] } := by
  have hplaces := congrArg (List.filter fun n : Node K => some n.id != k) h.places
  rwa [List.filter_map, List.filter_map] at hplaces

end Struck

theorem struck_delist (w : Scene K) (i : Id) : Struck w (w.delist i) where
  springs := rfl
  config := rfl
  connections := rfl
  listed := List.filter_sublist
  places := by
    simp only [delist, List.map_map]
    rfl
  nextNode := rfl
  nextSpring := rfl

/-- The spring of an id is struck out if there is one. -/
theorem deleteSpring_spec (h : w.Sound) (k : Key) :
    (deleteSpring k).wp
      (fun o t => o = .ok () ∧
        ((w.springRef? k = none ∧ t = w) ∨
          ∃ i r, k = some i ∧ w.springRef? k = some r ∧ t = w.delist i)) w := by
  unfold deleteSpring
  rw [wp_bind, wp_read, next_ok]
  cases hr : w.springRef? k with
  | none => cases k <;> exact ⟨rfl, .inl ⟨rfl, rfl⟩⟩
  | some r =>
    cases k with
    | none =>
      obtain ⟨hr, hid⟩ := of_springRef?_eq_some hr
      obtain ⟨i, hi, -⟩ := h.spring_lt r hr
      cases hid.symm.trans hi
    | some i => exact ⟨rfl, .inr ⟨i, r, rfl, rfl, rfl⟩⟩

theorem deleteSpring_onward (h : w.Sound) (k : Key) :
    (deleteSpring k).wp (fun o t => o = .ok () ∧ Onward w t ∧ Struck w t) w := by
  refine (deleteSpring_spec h k).mono fun o t => ?_
  rintro ⟨rfl, ⟨-, ht⟩ | ⟨i, r, -, -, ht⟩⟩ <;> rw [ht]
  · exact ⟨rfl, .refl h, .refl w⟩
  · exact ⟨rfl, onward_delist h i, struck_delist w i⟩

theorem springRef?_delist (w : Scene K) (i : Id) :
    (w.delist i).springRef? k = if k = some i then none else w.springRef? k := by
  show (w.graph.listed.filter _).find? (fun r => (w.spring r).id == k) = _
  rw [List.find?_filter]
  split
  · next hk =>
    rw [hk, List.find?_eq_none]
    simp
  · next hk =>
    refine List.find?_congr fun r _ => ?_
    by_cases he : (w.spring r).id = k
    · simp [he, hk]
    · simp [he]

/-- The springs of these ids are gone, and nothing else is. -/
structure Freed (w t : Scene K) (ids : List Id) : Prop where
  onward : Onward w t
  struck : Struck w t
  springRef? : ∀ k, t.springRef? k = if k ∈ ids.map some then none else w.springRef? k

theorem Freed.refl (h : w.Sound) : Freed w w [] := ⟨.refl h, .refl w, fun _ => by simp⟩

theorem Freed.trans {ids ids' : List Id} (h : Freed w t ids) (h' : Freed t u ids') :
    Freed w u (ids ++ ids') := by
  refine ⟨h.onward.trans h'.onward, h.struck.trans h'.struck, fun k => ?_⟩
  rw [h'.springRef?, h.springRef?, List.map_append]
  simp only [List.mem_append]
  split
  · next hk => rw [if_pos (.inr hk)]
  · next hk => simp [hk]

theorem Freed.mem_listed {ids : List Id} (h : w.Sound) (e : Freed w t ids) :
    r ∈ t.graph.listed ↔ r ∈ w.graph.listed ∧ (w.spring r).id ∉ ids.map some := by
  have hname : r ∈ t.graph.listed ↔ t.springRef? (w.spring r).id = some r := by
    rw [e.onward.sound.springRef?_iff, e.struck.spring, and_iff_left rfl]
  have hname' : r ∈ w.graph.listed ↔ w.springRef? (w.spring r).id = some r := by
    rw [h.springRef?_iff, and_iff_left rfl]
  rw [hname, hname', e.springRef?]
  split
  · next hid => simp [hid]
  · next hid => rw [and_iff_left hid]

theorem deleteSpring_freed (h : w.Sound) (i : Id) :
    (deleteSpring (some i)).wp (fun o t => o = .ok () ∧ Freed w t [i]) w := by
  refine (deleteSpring_spec h (some i)).mono fun o t => ?_
  rintro ⟨rfl, ⟨hn, ht⟩ | ⟨j, r, hj, -, ht⟩⟩ <;> rw [ht]
  · refine ⟨rfl, .refl h, .refl w, fun k => ?_⟩
    split
    · next hk => rw [List.mem_singleton.1 hk, hn]
    · rfl
  · cases hj
    refine ⟨rfl, onward_delist h i, struck_delist w i, fun k => ?_⟩
    rw [springRef?_delist]
    simp

theorem deleteListed_onward (h : w.Sound) (r : Ref) :
    (deleteListed r).wp (fun o t => o = .ok () ∧ Onward w t ∧ Struck w t) w := by
  unfold deleteListed
  rw [wp_bind, wp_read, next_ok]
  exact deleteSpring_onward h _

theorem listed_delist (h : w.Sound) (hr : r ∈ w.graph.listed) (hi : (w.spring r).id = some i) :
    (w.delist i).graph.listed = w.graph.listed.filter (· != r) := by
  refine List.filter_congr fun r' hr' => ?_
  rw [Bool.eq_iff_iff, bne_iff_ne, bne_iff_ne, ← hi]
  exact not_congr ⟨h.eq_of_id_eq hr' hr, fun e => by rw [e]⟩

/-- A listed spring is struck from the list, by the id that it has. -/
theorem deleteListed_spec (h : w.Sound) (hr : r ∈ w.graph.listed) :
    (deleteListed r).wp
      (fun o t => o = .ok () ∧ t.graph.listed = w.graph.listed.filter (· != r)) w := by
  unfold deleteListed
  rw [wp_bind, wp_read, next_ok]
  refine (deleteSpring_spec h _).mono fun o t => ?_
  rintro ⟨rfl, ⟨hn, -⟩ | ⟨i, r', hi, -, ht⟩⟩
  · exact absurd rfl (springRef?_eq_none_iff.1 hn r hr)
  · exact ⟨rfl, ht ▸ listed_delist h hr hi⟩

/-- Listed springs are struck out one by one; in the end all of them are gone. -/
theorem forEach_deleteListed (h : w.Sound) {rs : List Ref} (hrs : ∀ r ∈ rs, r ∈ w.graph.listed)
    (hd : rs.Nodup) :
    (forEach deleteListed rs).wp
      (fun o t => o = .ok () ∧ Onward w t ∧ Struck w t ∧
        t.graph.listed = w.graph.listed.filter (· ∉ rs)) w := by
  refine wp_forEach_ok (I := fun done t => Onward w t ∧ Struck w t ∧
    t.graph.listed = w.graph.listed.filter (· ∉ done)) ⟨.refl h, .refl w, by simp⟩ ?_
  rintro done r rest rfl t ⟨ht, hst, hl⟩
  have hr : r ∈ t.graph.listed := by
    rw [hl, List.mem_filter]
    refine ⟨hrs r (by simp), decide_eq_true fun hmem => ?_⟩
    exact List.disjoint_of_nodup_append hd hmem (by simp)
  refine ((deleteListed_onward ht.sound r).and (deleteListed_spec ht.sound hr)).mono ?_
  rintro o t' ⟨⟨rfl, ht', hst'⟩, -, hl'⟩
  refine ⟨rfl, ht.trans ht', hst.trans hst', ?_⟩
  rw [hl', hl, List.filter_filter]
  refine List.filter_congr fun r' _ => ?_
  rw [Bool.eq_iff_iff]
  simp [and_comm]

/-! ### Operations -/

/-- A point that cannot be read is a failure; otherwise there is one more node. -/
theorem addNode_keep {I : Scene K → Prop} (h : I w) (hI : ∀ p, I (w.insertNode p))
    (spot : Coords K) : (addNode spot).wp (fun _ t => I t) w := by
  unfold addNode
  exact wp_bind_check (I := I) rfl h fun p => hI p

theorem addNode_onward (h : w.Sound) (spot : Coords K) :
    (addNode spot).wp (fun _ t => Onward w t) w :=
  addNode_keep (.refl h) (onward_insertNode h) spot

theorem putNode_keep {I : Scene K → Prop} (h : I w) (hI : ∀ i p, I (w.changeNode i (·.place p)))
    (k : Key) (spot : Coords K) : (putNode k spot).wp (fun _ t => I t) w := by
  unfold putNode
  rw [wp_bind, wp_needNode]
  split
  · rw [next_ok]
    exact wp_bind_check (I := I) rfl h fun p => hI _ p
  · exact h

theorem putNode_onward (h : w.Sound) (k : Key) (spot : Coords K) :
    (putNode k spot).wp (fun _ t => Onward w t) w :=
  putNode_keep (.refl h) (fun _ _ => (Onward.refl h).alike
    (alike_changeNode (fun _ => rfl) fun _ => rfl)) k spot

/-- Whatever a new spring keeps is kept by a pin. -/
theorem pin_keep {I : Scene K → Prop} (h : I w)
    (hnew : ∀ c, c.Supplied w.graph.config → (enterNew c).wp (fun _ t => I t) w) (k : Key)
    (spot : Option (Coords K)) : (pin k spot).wp (fun _ t => I t) w := by
  have hrest : ∀ p, (constants .affix >>= fun c => enterNew (.affix c k (some p))).wp
      (fun _ t => I t) w := fun p => by
    rw [wp_bind, wp_constants, next_ok]
    exact hnew _ rfl
  unfold pin
  cases spot with
  | some c => exact hrest c
  | none =>
    rw [wp_bind, wp_needNode]
    split
    · exact hrest _
    · exact h

theorem pin_onward (h : w.Sound) (k : Key) (spot : Option (Coords K)) :
    (pin k spot).wp (fun _ t => Onward w t) w :=
  pin_keep (.refl h) (fun c _ => enterNew_onward h c) k spot

theorem build_distance {c : Option (Constants K)} {a b : Id} {lower upper : Option (Number K)}
    {s : Spring K}
    (h : (SpringSpec.distance c (some a) (some b) lower upper).build = .ok s) :
    s.kind = .distance ∧ s.endpoints = [some a, some b] := by
  unfold SpringSpec.build SpringSpec.distance at h
  simp only [bind, Except.bind, pure, Except.pure] at h
  split at h
  · cases h
  · cases h
    exact ⟨rfl, rfl⟩

theorem build_rail {c : Option (Constants K)} {b : Key} {p d : Coords K} {s : Spring K}
    (h : (SpringSpec.rail c b (some p) (some d)).build = .ok s) :
    s.kind = .rail ∧ s.endpoints = [b] ∧ s.lower = some (.real 0.0) ∧
      s.upper = some (.real 0.0) := by
  unfold SpringSpec.build SpringSpec.rail SpringSpec.held at h
  cases hp : p.toPoint with
  | error e => simp [hp, Except.map, bind, Except.bind] at h
  | ok x =>
    cases hd : d.toPoint with
    | error e => simp [hp, hd, Except.map, bind, Except.bind] at h
    | ok y =>
      simp only [hp, hd, Except.map, bind, Except.bind, pure, Except.pure, Except.ok.injEq] at h
      rw [← h]
      exact ⟨rfl, rfl, rfl, rfl⟩

theorem exists_build_rail (c : Option (Constants K)) (b : Key) (p d : Point K) :
    ∃ s, (SpringSpec.rail c b (some (.ofPoint p)) (some (.ofPoint d))).build = .ok s :=
  ⟨_, rfl⟩

/-- Two nodes are tied by a new spring, or nothing happened. -/
theorem tie_spec (h : w.Sound) (a b : Id) (lower upper : Option (Number K)) :
    (tie (some a) (some b) lower upper).wp
      (fun o t => match o with
        | .error _ => t = w
        | .ok _ => ∃ s, s.kind = .distance ∧ s.endpoints = [some a, some b] ∧ Entered w t s ∧
            t = (w.makeSpring s).enlist w.springs.fresh) w := by
  unfold tie
  rw [wp_bind, wp_constants, next_ok]
  refine (enterNew_spec w _).mono fun o t => ?_
  cases o with
  | error e => exact id
  | ok r =>
    rintro ⟨rfl, s, hs, he, rfl⟩
    obtain ⟨hk, hend⟩ := build_distance hs
    exact ⟨s, hk, hend, entered h he, rfl⟩

/-- Whatever a new spring keeps is kept by a tie. -/
theorem tie_keep {I : Scene K → Prop}
    (hnew : ∀ c, c.Supplied w.graph.config → (enterNew c).wp (fun _ t => I t) w) (a b : Key)
    (lower upper : Option (Number K)) : (tie a b lower upper).wp (fun _ t => I t) w := by
  unfold tie
  rw [wp_bind, wp_constants, next_ok]
  exact hnew _ rfl

theorem tie_onward (h : w.Sound) (a b : Key) (lower upper : Option (Number K)) :
    (tie a b lower upper).wp (fun _ t => Onward w t) w :=
  tie_keep (fun c _ => enterNew_onward h c) a b lower upper

/-- Whatever a new spring keeps is kept by a drag. -/
theorem follow_keep {I : Scene K → Prop}
    (hnew : ∀ c, c.Supplied w.graph.config → (enterNew c).wp (fun _ t => I t) w) (k : Key)
    (spot : Option (Coords K)) : (follow k spot).wp (fun _ t => I t) w := by
  unfold follow
  rw [wp_bind, wp_constants, next_ok]
  exact hnew _ rfl

theorem follow_onward (h : w.Sound) (k : Key) (spot : Option (Coords K)) :
    (follow k spot).wp (fun _ t => Onward w t) w :=
  follow_keep (fun c _ => enterNew_onward h c) k spot

omit [Scalar K] in
theorem movePoint_keeps {s s' : Spring K} {p : Except (Failure K) (Point K)}
    (h : s.movePoint p = .ok s') :
    s'.id = s.id ∧ s'.kind = s.kind ∧ s'.endpoints = s.endpoints ∧ s'.lower = s.lower ∧
      s'.upper = s.upper := by
  unfold Spring.movePoint at h
  split at h
  · cases h
  · next q e =>
    cases p with
    | error _ => cases h
    | ok p =>
      cases h
      simp [Spring.endpoints, e]

theorem movePoint_alike (w : Scene K) (r : Ref) (spot : Coords K) :
    (movePoint r spot).wp (fun _ t => Alike w t) w := by
  unfold movePoint
  rw [wp_bind, wp_read, next_ok, wp_bind, wp_ofExcept]
  cases hm : (w.spring r).movePoint spot.toPoint with
  | error e => exact .refl w
  | ok s =>
    obtain ⟨hi, hk, he, -⟩ := movePoint_keeps hm
    exact alike_setSpring hi hk he

theorem boundSpring_alike (w : Scene K) (r : Ref) (lower upper : Option (Number K)) :
    (boundSpring r lower upper).wp (fun _ t => Alike w t) w :=
  alike_setSpring rfl rfl rfl

theorem expire_alike (w : Scene K) (r : Ref) : (expire r).wp (fun _ t => Alike w t) w :=
  alike_setSpring rfl rfl rfl

omit [Scalar K] in
/-- A line is drawn between two nodes that had none. -/
theorem connect_keep {I : Scene K → Prop} (h : I w)
    (hI : ∀ c : Connection, w.isNode (some c.a) → w.isNode (some c.b) →
      (∀ d ∈ w.graph.connections, d.sameLine c = false) → I (w.insertConnection c))
    (k l : Key) : (connect k l).wp (fun _ t => I t) w := by
  unfold connect
  simp only [wp_ite, wp_bind, wp_fail, next_error, wp_needNode]
  split
  · exact h
  · next hkl =>
    cases ha : w.node? k with
    | none => exact h
    | some a =>
      simp only [next_ok, wp_bind, wp_needNode]
      cases hb : w.node? l with
      | none => exact h
      | some b =>
        obtain ⟨hma, rfl⟩ := of_node?_eq_some ha
        obtain ⟨hmb, rfl⟩ := of_node?_eq_some hb
        have hne : a.id ≠ b.id := fun e => hkl (congrArg some e)
        simp only [next_ok, wp_bind, wp_ofExcept, Connection.between_of_ne hne, wp_read]
        split
        · exact h
        · next hnone =>
          refine hI _ (isNode_of_mem hma) (isNode_of_mem hmb) fun d hd => ?_
          exact Bool.eq_false_iff.2 (List.find?_eq_none.1 hnone d hd)

theorem connect_onward (h : w.Sound) (k l : Key) :
    (connect k l).wp (fun _ t => Onward w t) w :=
  connect_keep (.refl h) (fun _ => onward_insertConnection h) k l

theorem disconnect_onward (h : w.Sound) (k l : Key) :
    (disconnect k l).wp (fun _ t => Onward w t) w :=
  onward_eraseConnection h k l

/-- The node of a key is gone, and with it the springs and connections at it. -/
structure Erased (k : Key) (w t : Scene K) : Prop where
  onward : Onward w t
  springs : t.springs = w.springs
  listed : t.graph.listed = w.graph.listed.filter fun r => !(w.spring r).contains k
  connections : t.graph.connections = w.graph.connections.filter fun c => !c.contains k
  places : (t.graph.nodes.map fun n => { n with springIds := [] }) =
    (w.graph.nodes.filter fun n => some n.id != k).map fun n => { n with springIds := [] }
  nextNode : t.graph.nextNode = w.graph.nextNode
  nextSpring : t.graph.nextSpring = w.graph.nextSpring

/-- Where there is no node of this key, there is nothing at it. -/
theorem erased_absent (h : w.Sound) (hk : ¬ w.isNode k) : Erased k w w := by
  have hnode : ∀ i : Id, w.isNode (some i) → some i ≠ k := fun i hi e => hk (e ▸ hi)
  refine ⟨.refl h, rfl, ?_, ?_, ?_, rfl, rfl⟩
  · refine (List.filter_eq_self.2 fun r hr => ?_).symm
    rw [Bool.not_eq_true', ← Bool.not_eq_true, Spring.contains, List.contains_iff_mem]
    exact fun hmem => hk (h.endpoints r hr k hmem)
  · refine (List.filter_eq_self.2 fun c hc => ?_).symm
    obtain ⟨-, ha, hb⟩ := h.lines c hc
    simp [Connection.contains, hnode _ ha, hnode _ hb]
  · rw [List.filter_eq_self.2 fun n hn => ?_]
    simpa using hnode _ (isNode_of_mem hn)

/-- The springs at the node go first, so that none is left without an endpoint. -/
theorem deleteNode_spec (h : w.Sound) (k : Key) :
    (deleteNode k).wp (fun o t => o = .ok () ∧ Erased k w t) w := by
  unfold deleteNode
  simp only [wp_bind, wp_report, wp_read, next_ok, wp_ite]
  split
  · refine (forEach_deleteListed h (fun r hr => (mem_touching.1 hr).1)
      (h.listed_nodup.sublist List.filter_sublist)).mono fun o t => ?_
    rintro ⟨rfl, ht, hst, hl⟩
    simp only [next_ok, wp_bind, wp_change, wp_report]
    have hfree : t.touching k = [] := by
      refine List.eq_nil_iff_forall_not_mem.2 fun r hr => ?_
      obtain ⟨hr, hk⟩ := mem_touching.1 hr
      rw [hst.spring] at hk
      rw [hl, List.mem_filter] at hr
      exact of_decide_eq_true hr.2 (mem_touching.2 ⟨hr.1, hk⟩)
    refine ⟨trivial, ht.trans (onward_eraseNode ht.sound hfree), hst.springs, ?_, ?_,
      hst.places_filter k, hst.nextNode, hst.nextSpring⟩
    · refine hl.trans (List.filter_congr fun r hr => ?_)
      simp [touching, hr]
    · show t.graph.connections.filter _ = _
      rw [hst.connections]
  · next hk => exact ⟨trivial, erased_absent h hk⟩

theorem deleteNode_onward (h : w.Sound) (k : Key) :
    (deleteNode k).wp (fun _ t => Onward w t) w :=
  (deleteNode_spec h k).mono fun _ _ ht => ht.2.onward

theorem Erased.isNode {l : Key} (h : Erased k w t) : t.isNode l ↔ w.isNode l ∧ l ≠ k := by
  have hmem : ∀ w : Scene K, w.isNode l ↔
      ∃ n ∈ w.graph.nodes.map fun n => { n with springIds := [] }, some n.id = l := by
    simp [Scene.isNode_iff]
  rw [hmem, hmem, h.places]
  simp only [List.mem_map, List.mem_filter, bne_iff_ne]
  constructor
  · rintro ⟨-, ⟨n, ⟨hn, hne⟩, rfl⟩, rfl⟩
    exact ⟨⟨_, ⟨n, hn, rfl⟩, rfl⟩, hne⟩
  · rintro ⟨⟨-, ⟨n, hn, rfl⟩, rfl⟩, hne⟩
    exact ⟨_, ⟨n, ⟨hn, hne⟩, rfl⟩, rfl⟩

end Scene

end Linkage
