import Linkage.Proofs.Momentum

/-!
# Locality

Nodes that no spring joins have nothing to do with each other. Where no spring runs from a set of
nodes to the rest, a frame of the scene does to these nodes and to the springs between them what it
does where there is nothing else (`Bench.local_after_run`).
-/

namespace Linkage

open Act

variable {K : Type} {S : Set Id}

namespace Spring

variable {s s' : Spring K} {i : Id}

/-- Its nodes are all in `S`. -/
def Inside (S : Set Id) (s : Spring K) : Prop := ∀ i, some i ∈ s.endpoints → i ∈ S

/-- It does not run from `S` to other nodes. -/
def Apart (S : Set Id) (s : Spring K) : Prop := s.Inside S ∨ s.Inside Sᶜ

instance [DecidablePred (· ∈ S)] (s : Spring K) : Decidable (s.Inside S) :=
  decidable_of_iff (s.endpoints.all (Option.all (· ∈ S))) <| by
    simp only [Inside, List.all_eq_true, Option.all_eq_true, decide_eq_true_eq]
    exact ⟨fun h i hi => h _ hi i rfl, fun h k hk i e => h i (e ▸ hk)⟩

theorem Apart.inside (h : s.Apart S) (hs : some i ∈ s.endpoints) (hi : i ∈ S) : s.Inside S :=
  h.resolve_right fun hout => hout i hs hi

/-- A spring at one of the nodes of `S` is inside. -/
theorem Apart.contains_and [DecidablePred (· ∈ S)] (h : s.Apart S) (hi : i ∈ S) :
    (s.contains (some i) && decide (s.Inside S)) = s.contains (some i) := by
  cases hc : s.contains (some i) with
  | false => rfl
  | true =>
    have hinside : s.Inside S := h.inside (by simpa [contains] using hc) hi
    simp [hinside]

theorem inside_congr (h : s'.endpoints = s.endpoints) : s'.Inside S ↔ s.Inside S := by
  rw [Inside, Inside, h]

theorem apart_congr (h : s'.endpoints = s.endpoints) : s'.Apart S ↔ s.Apart S := by
  rw [Apart, Apart, inside_congr h, inside_congr h]

end Spring

section

variable [DecidablePred (· ∈ S)]

namespace Motion

variable {m m' : Motion K} {s : Spring K} {b : Body K} {c : Stepping K} {h : K}

/-- The bodies of these ids and the springs among them. -/
def restrict (S : Set Id) [DecidablePred (· ∈ S)] (m : Motion K) : Motion K :=
  ⟨m.springs.filter (·.Inside S), m.bodies.filter (·.id ∈ S)⟩

/-- No spring runs from `S` to other bodies. -/
def Apart (S : Set Id) (m : Motion K) : Prop := ∀ s ∈ m.springs, s.Apart S

theorem position_restrict {k : Key} (hk : ∀ i, k = some i → i ∈ S) :
    (m.restrict S).position k = m.position k := by
  have hfind : (m.bodies.filter (·.id ∈ S)).find? (fun b => some b.id == k) =
      m.bodies.find? fun b => some b.id == k := by
    rw [List.find?_filter]
    congr 1
    funext b
    by_cases hb : some b.id = k
    · simp [hb, hk b.id hb.symm]
    · simp [hb]
  unfold position restrict
  rw [hfind]

theorem ends_restrict (hs : s.Inside S) : (m.restrict S).ends s = m.ends s := by
  have hb : (m.restrict S).position s.b = m.position s.b :=
    position_restrict fun i hi => hs i (by cases ha : s.a <;> simp [Spring.endpoints, ha, hi])
  cases ha : s.a with
  | point p => simp only [ends, ha, hb]
  | node i =>
    have hi : (m.restrict S).position (some i) = m.position (some i) :=
      position_restrict fun j hj => hs j (by simp [Spring.endpoints, ha, hj])
    simp only [ends, ha, hb, hi]

/-- What springs in `S` see is all in `S`. -/
theorem look_restrict {f : Spring K → Point K → Point K → Except (Failure K) (Spring K)}
    (hf : Scene.StrainOnly f) (e : m.look f = .ok m') :
    (m.restrict S).look f = .ok (m'.restrict S) := by
  obtain ⟨hbodies, hsprings⟩ := look_eq_ok_iff.1 e
  refine look_eq_ok_iff.2 ⟨by simp only [restrict, hbodies], ?_⟩
  have hinside : ∀ s ∈ m.springs.filter (·.Inside S), s.Inside S := fun s hs => by
    simpa using (List.mem_filter.1 hs).2
  have hfilter := List.rel_filter (p := fun s => decide (s.Inside S))
    (q := fun s => decide (s.Inside S)) (fun s s' ⟨p, _, hs'⟩ => by
      simp only [decide_eq_true_eq, Spring.inside_congr (hf.endpoints hs')]) hsprings
  refine ((List.forall₂_and_left _ _).2 ⟨hinside, hfilter⟩).imp fun s s' h => ?_
  rw [ends_restrict h.1]
  exact h.2

omit [DecidablePred (· ∈ S)] in
theorem Apart.look {f : Spring K → Point K → Point K → Except (Failure K) (Spring K)}
    (hm : m.Apart S) (hf : Scene.StrainOnly f) (e : m.look f = .ok m') : m'.Apart S := by
  intro s' hs'
  obtain ⟨s, hs, p, -, h⟩ := exists_of_look e hs'
  exact (Spring.apart_congr (hf.endpoints h)).2 (hm s hs)

theorem sweep_restrict (m : Motion K) : (m.restrict S).sweep = m.sweep.restrict S := by
  unfold sweep restrict
  simp only [List.filter_filter, Bool.and_comm]

variable [Scalar K]

theorem force_restrict (hm : m.Apart S) (hb : b.id ∈ S) (friction : K) :
    (m.restrict S).force friction b = m.force friction b := by
  have hfilter : (m.springs.filter (·.Inside S)).filter (·.contains (some b.id)) =
      m.springs.filter (·.contains (some b.id)) := by
    rw [List.filter_filter]
    exact List.filter_congr fun s hs => (hm s hs).contains_and hb
  unfold force restrict
  rw [hfilter]

theorem move_restrict (hm : m.Apart S) (friction h : K) :
    (m.restrict S).move friction h = (m.move friction h).restrict S := by
  unfold move
  rw [restrict, restrict, List.filter_map]
  congr 1
  refine List.map_congr_left fun b hb => ?_
  have hforce := force_restrict hm (of_decide_eq_true (List.mem_filter.1 hb).2) friction
  rw [restrict] at hforce
  rw [hforce]

theorem move_of_isEmpty (hm : m.bodies.isEmpty) (friction h : K) : m.move friction h = m := by
  obtain ⟨springs, bodies⟩ := m
  cases List.isEmpty_iff.1 hm
  rfl

/-- Friction is not needed where there are no bodies; it makes no difference there. -/
theorem substep_restrict (hm : m.Apart S) (e : m.substep c h = .ok m') :
    (m.restrict S).substep c h = .ok (m'.restrict S) ∧ m'.Apart S := by
  obtain ⟨u, hu, e⟩ := bind_eq_ok_iff.1 e
  have hstrain := Scene.strainOnly_strained h c.lengthCap
  have hlook := look_restrict (S := S) hstrain hu
  have hapart : u.Apart S := hm.look hstrain hu
  split at e
  · next hempty =>
    have hempty' : (u.restrict S).bodies.isEmpty := by
      simp [restrict, List.isEmpty_iff.1 hempty]
    cases e
    exact ⟨bind_eq_ok_iff.2 ⟨_, hlook, if_pos hempty'⟩, hapart⟩
  · -- `S` may be without bodies where the whole has some
    obtain ⟨friction, hfriction, rfl⟩ := map_eq_ok_iff.1 e
    refine ⟨bind_eq_ok_iff.2 ⟨u.restrict S, hlook, ?_⟩, hapart⟩
    rw [hfriction, ← move_restrict hapart]
    split
    · next hempty => rw [move_of_isEmpty hempty]
    · rfl

theorem substeps_restrict (hm : m.Apart S) {n : Nat} (e : m.substeps c h n = .ok m') :
    (m.restrict S).substeps c h n = .ok (m'.restrict S) ∧ m'.Apart S := by
  induction n generalizing m with
  | zero =>
    cases e
    exact ⟨rfl, hm⟩
  | succ n ih =>
    obtain ⟨u, hu, e⟩ := bind_eq_ok_iff.1 e
    obtain ⟨hu', hapart⟩ := substep_restrict hm hu
    obtain ⟨he, hapart⟩ := ih hapart e
    exact ⟨bind_eq_ok_iff.2 ⟨u.restrict S, hu', he⟩, hapart⟩

theorem advance_restrict (hm : m.Apart S) {dt : K} (e : m.advance c dt = .ok m') :
    (m.restrict S).advance c dt = .ok (m'.restrict S) ∧ m'.Apart S := by
  unfold advance at e ⊢
  split at e
  · next hdt =>
    cases e
    exact ⟨if_pos hdt, hm⟩
  · next hdt =>
    rw [if_neg hdt]
    obtain ⟨steps, hsteps, e⟩ := bind_eq_ok_iff.1 e
    obtain ⟨h, hh, e⟩ := bind_eq_ok_iff.1 e
    obtain ⟨u, hu, e⟩ := bind_eq_ok_iff.1 e
    obtain ⟨n, hn, e⟩ := bind_eq_ok_iff.1 e
    obtain ⟨v, hv, rfl⟩ := map_eq_ok_iff.1 e
    have hrelax := Scene.strainOnly_relaxed c.lengthCap
    obtain ⟨hv', hapart⟩ := substeps_restrict (hm.look hrelax hu) hv
    refine ⟨?_, fun s hs => hapart s (List.mem_filter.1 hs).1⟩
    refine bind_eq_ok_iff.2 ⟨steps, hsteps, bind_eq_ok_iff.2 ⟨h, hh, ?_⟩⟩
    refine bind_eq_ok_iff.2 ⟨_, look_restrict hrelax hu, bind_eq_ok_iff.2 ⟨n, hn, ?_⟩⟩
    exact map_eq_ok_iff.2 ⟨_, hv', sweep_restrict v⟩

end Motion

namespace Scene

variable {w t : Scene K}

variable [Scalar K]

/-- The graph of these nodes, the springs among them and the lines between them. Ids stay, and what
the nodes keep of springs. -/
def restrict (S : Set Id) [DecidablePred (· ∈ S)] (w : Scene K) : Scene K :=
  { w with graph :=
    { w.graph with
      nodes := w.graph.nodes.filter (·.id ∈ S)
      listed := w.graph.listed.filter fun r => (w.spring r).Inside S
      connections := w.graph.connections.filter fun c => c.a ∈ S ∧ c.b ∈ S } }

theorem members_restrict (w : Scene K) :
    (w.restrict S).members = w.members.filter (·.Inside S) := by
  rw [members, members, List.filter_map]
  rfl

theorem motion_restrict (w : Scene K) : (w.restrict S).motion = w.motion.restrict S := by
  rw [motion, members_restrict, motion, Motion.restrict, List.filter_map]
  rfl

theorem isNode_restrict {i : Id} :
    (w.restrict S).isNode (some i) ↔ w.isNode (some i) ∧ i ∈ S := by
  simp only [isNode_iff, restrict, List.mem_filter, decide_eq_true_eq, Option.some.injEq]
  constructor
  · rintro ⟨n, ⟨hn, hS⟩, rfl⟩
    exact ⟨⟨n, hn, rfl⟩, hS⟩
  · rintro ⟨⟨n, hn, rfl⟩, hS⟩
    exact ⟨n, ⟨hn, hS⟩, rfl⟩

theorem Sound.restrict (h : w.Sound) (hw : w.motion.Apart S) : (w.restrict S).Sound where
  nodes_ascend := h.nodes_ascend.sublist List.filter_sublist
  node_lt n hn := h.node_lt n (List.mem_filter.1 hn).1
  springs_ascend := h.springs_ascend.sublist List.filter_sublist
  spring_lt r hr := h.spring_lt r (List.mem_filter.1 hr).1
  listed_lt r hr := h.listed_lt r (List.mem_filter.1 hr).1
  endpoints r hr k hk := by
    obtain ⟨hr, hinside⟩ := List.mem_filter.1 hr
    have hnode := h.endpoints r hr k hk
    obtain ⟨n, -, rfl⟩ := isNode_iff.1 hnode
    exact isNode_restrict.2 ⟨hnode, of_decide_eq_true hinside n.id hk⟩
  attached n hn := by
    obtain ⟨hn, hS⟩ := List.mem_filter.1 hn
    rw [h.attached n hn]
    have htouching : (w.restrict S).touching (some n.id) = w.touching (some n.id) := by
      show (w.graph.listed.filter _).filter _ = w.graph.listed.filter _
      rw [List.filter_filter]
      exact List.filter_congr fun r hr =>
        (hw _ (List.mem_map_of_mem hr)).contains_and (of_decide_eq_true hS)
    rw [htouching]
    rfl
  lines c hc := by
    obtain ⟨hc, hS⟩ := List.mem_filter.1 hc
    obtain ⟨ha, hb⟩ := of_decide_eq_true hS
    obtain ⟨hne, hna, hnb⟩ := h.lines c hc
    exact ⟨hne, isNode_restrict.2 ⟨hna, ha⟩, isNode_restrict.2 ⟨hnb, hb⟩⟩
  lines_apart := h.lines_apart.sublist List.filter_sublist

omit [DecidablePred (· ∈ S)] [Scalar K] in
/-- Nodes that are alike as bodies are alike up to what they keep of springs. -/
theorem places_of_bodies {l l' : List (Node K)} (h : l.map Node.body = l'.map Node.body) :
    (l.map fun n => { n with springIds := [] }) = l'.map fun n => { n with springIds := [] } := by
  have := congrArg (List.map fun b : Body K => Node.mk b.id b.position b.velocity []) h
  rwa [List.map_map, List.map_map] at this

/-- A frame that does not fail does not fail without the other nodes either, and comes out alike. -/
theorem advance_restrict (h : w.Sound) (hw : w.motion.Apart S) (dt : K)
    (hok : (advance dt w).outcome = .ok ()) :
    (advance dt).wp (fun o u => o = .ok () ∧
      u.graph = ((advance dt w).state.restrict S).graph ∧
      u.members = ((advance dt w).state.restrict S).members) (w.restrict S) := by
  by_cases hdt : dt ≤ 0.0
  · have hnothing : ∀ w : Scene K, advance dt w = ⟨.ok (), w, []⟩ := fun w => by
      unfold advance
      rw [if_pos hdt]
      rfl
    rw [wp, hnothing, hnothing]
    exact ⟨rfl, rfl, rfl⟩
  have hr : (w.restrict S).Sound := h.restrict hw
  let t := (advance dt w).state
  have ht : w.motion.advance w.graph.config.stepping dt = .ok t.motion := by
    have hmotion : (advance dt w).outcome.map (fun _ => t.motion) = _ := advance_motion h dt
    rw [← hmotion, hok]
    rfl
  obtain ⟨hrestrict, hapart⟩ := Motion.advance_restrict hw ht
  have htsound : (t.restrict S).Sound := (advance_spec h dt).1.sound.restrict hapart
  obtain ⟨htgraph, htspring⟩ := advance_graph h dt
  have htlisted : t.graph.listed = w.graph.listed.filter fun r => !(w.spring r).expired :=
    advance_listed h hdt hok
  refine (((advance_motion hr dt).and (advance_listed hr hdt)).and
    ((advance_spec hr dt).and (advance_graph hr dt))).mono fun o u => ?_
  rintro ⟨⟨hmotion, hulisted⟩, ⟨husound, -⟩, hugraph, -⟩
  rw [motion_restrict] at hmotion
  obtain ⟨_, rfl, hu⟩ := map_eq_ok_iff.1 (hmotion.trans hrestrict)
  have hu : u.motion = (t.restrict S).motion := hu.trans (motion_restrict t).symm
  have hmembers : u.members = (t.restrict S).members := congrArg Motion.springs hu
  have hl : u.graph.listed = (t.restrict S).graph.listed := by
    rw [hulisted rfl]
    show (w.graph.listed.filter fun r => _).filter _ = t.graph.listed.filter fun r => _
    rw [htlisted, List.filter_filter, List.filter_filter]
    refine List.filter_congr fun r _ => ?_
    have hinside : (t.spring r).Inside S ↔ (w.spring r).Inside S :=
      Spring.inside_congr (by rw [htspring r]; rfl)
    simp only [hinside, Bool.and_comm]
    rfl
  -- the lists name the same objects, so that alike springs are alike object by object
  have hsprings : ∀ r ∈ (t.restrict S).graph.listed, u.spring r = (t.restrict S).spring r := by
    rw [members, members, hl] at hmembers
    exact List.map_inj_left.1 hmembers
  refine ⟨rfl, htsound.graph_ext husound.sound hsprings ?_ hl
    (places_of_bodies (congrArg Motion.bodies hu)) ?_ ?_ ?_, hmembers⟩
  · exact (congrArg Graph.config hugraph).trans (congrArg Graph.config htgraph).symm
  · have hlines : t.graph.connections = w.graph.connections :=
      (congrArg Graph.connections htgraph :)
    exact (congrArg Graph.connections hugraph).trans (by rw [restrict, restrict, hlines])
  · exact (congrArg Graph.nextNode hugraph).trans (congrArg Graph.nextNode htgraph).symm
  · exact (congrArg Graph.nextSpring hugraph).trans (congrArg Graph.nextSpring htgraph).symm

end Scene

end

namespace Bench

variable [Scalar K]

/-- After every run, and for every set of nodes that no spring joins to the rest: if a frame does
not fail, it does not fail on these nodes and the springs among them alone either, and it leaves the
graph and the springs there that the frame of the whole leaves of them. -/
theorem local_after_run (c : Config K) (springs : Arena (Spring K))
    (quantities : Arena (Quantity K)) (ops : List (Op K)) (dt : K) (S : Set Id)
    [DecidablePred (· ∈ S)] :
    let w := (after ops (empty c springs quantities)).toScene
    let t := (Scene.advance dt w).state
    let u := (Scene.advance dt (w.restrict S)).state
    (∀ s ∈ w.members, s.Apart S) → (Scene.advance dt w).outcome = .ok () →
      (Scene.advance dt (w.restrict S)).outcome = .ok () ∧
        u.graph = (t.restrict S).graph ∧ u.members = (t.restrict S).members := by
  intro w t u hapart hok
  have hw : w.Sound := (sound_after c springs quantities ops).scene
  exact Scene.advance_restrict hw hapart dt hok

/-- Nodes at `(0, 0)`, `(1, 0)` and `(5, 5)`, and a spring between the first two. -/
noncomputable def besideRun : List (Op ℝ) :=
  let node (x y : ℝ) : Op ℝ := .sketch (.scene (.addNode (.ofPoint ⟨x, y⟩)))
  [node 0 0, node 1 0, node 5.0 5.0,
    .sketch (.scene (.tie (some 0) (some 1) (some (.real 2.0)) (some (.real 2.0))))]

theorem local_beside :
    let w := (after besideRun (empty default {} {} : Bench ℝ)).toScene
    let S : Set Id := Set.Iic 1
    (∀ s ∈ w.members, s.Apart S) ∧ (Scene.advance 1 w).outcome = .ok () ∧
      (w.restrict S).graph.nodes.map Node.id = [0, 1] ∧
      (Scene.advance 1 (w.restrict S)).outcome = .ok () ∧
      (Scene.advance 1 (w.restrict S)).state.graph =
        ((Scene.advance 1 w).state.restrict S).graph ∧
      (Scene.advance 1 (w.restrict S)).state.members =
        ((Scene.advance 1 w).state.restrict S).members := by
  intro w S
  have hmembers : w.members = [w.spring 0] := rfl
  have hapart : ∀ s ∈ w.members, s.Apart S := by
    have hends : (w.spring 0).endpoints = [some 0, some 1] := rfl
    rw [hmembers]
    refine List.forall_mem_singleton.2 (.inl fun i hi => ?_)
    simp only [hends, List.mem_cons, Option.some.injEq, List.not_mem_nil, or_false] at hi
    rcases hi with rfl | rfl <;> simp [S]
  have hok : (Scene.advance 1 w).outcome = .ok () := by
    have hjoin : ∀ s ∈ w.members, s.a.literal? = none := by
      rw [hmembers]
      exact List.forall_mem_singleton.2 rfl
    have hnum : w.Numeric := Scene.numeric_of_members_eq hmembers rfl
    have hw : w.Sound := (sound_after default {} {} besideRun).scene
    have hsteps : w.graph.config.stepping.stepsFor 1 = .ok (.number (.whole 25)) := rfl
    have hmany : ((25 : Int) : ℝ) ≠ 0 := by norm_num
    exact (Scene.advance_momentum hw hjoin one_pos rfl hsteps rfl).2 rfl hmany hnum
  exact ⟨hapart, hok, rfl, local_after_run default {} {} besideRun 1 S hapart hok⟩

end Bench

end Linkage
