import Linkage.Proofs.Stepping

/-!
# What a frame does to the lists

A frame that succeeds takes the expired springs off the list and their ids off the nodes, and leaves
everything else where and as it was but strains, places and velocities. `Scene.Swept` says what
becomes of each list; `swept_of_stages` reads it off the stages of the frame.
-/

namespace Linkage

open Act

variable {K : Type} [Scalar K]

namespace Scene

variable {w t u : Scene K} {dt : K}

/-- The listed springs that have expired. -/
def expired (w : Scene K) : List Ref := w.graph.listed.filter fun r => (w.spring r).expired

/-- The expired springs are off the list and off the nodes, and nothing else is. -/
structure Swept (w t : Scene K) : Prop where
  listed : t.graph.listed = w.graph.listed.filter fun r => !(w.spring r).expired
  spring : ∀ r, t.spring r = { w.spring r with strain := (t.spring r).strain }
  size : t.springs.size = w.springs.size
  nodes : (t.graph.nodes.map fun n => (n.id, n.springIds)) = w.graph.nodes.map fun n =>
    (n.id, n.springIds.filter fun i => some i ∉ w.expired.map fun r => (w.spring r).id)
  graph : t.graph = { w.graph with nodes := t.graph.nodes, listed := t.graph.listed }

theorem filter_expired (w : Scene K) :
    (w.graph.listed.filter fun r => !(w.spring r).expired) =
      w.graph.listed.filter fun r => r ∉ w.expired :=
  List.filter_congr fun r hr => by simp [expired, hr]

theorem Strained.expired (hu : Strained w u) : u.expired = w.expired := by
  unfold Scene.expired
  rw [hu.alike.listed]
  exact List.filter_congr fun r _ => by rw [hu.spring r]

/-- What nodes keep of springs before a frame, they keep after it but for what has been swept. -/
theorem nodes_of_stages (hw : w.Sound) (ht : t.Sound) (hu : Strained w u) (hst : Struck u t)
    (hlisted : t.graph.listed = u.graph.listed.filter fun r => r ∉ u.expired) :
    (t.graph.nodes.map fun n => (n.id, n.springIds)) = u.graph.nodes.map fun n =>
      (n.id, n.springIds.filter fun i => some i ∉ u.expired.map fun r => (u.spring r).id) := by
  have hus : u.Sound := hw.alike hu.alike
  rw [ht.nodes_eq, hst.places, List.map_map, List.map_map]
  refine List.map_congr_left fun n hn => ?_
  have hids := hus.springIds_filter (fun r hr => (List.mem_filter.1 hr).1) hst.spring hlisted hn
  exact Prod.ext rfl hids

theorem swept_of_stages (hw : w.Sound) (ht : t.Sound) (hu : Strained w u) (hst : Struck u t)
    (hlisted : t.graph.listed = w.graph.listed.filter fun r => !(w.spring r).expired)
    (hgraph : t.graph = { w.graph with nodes := t.graph.nodes, listed := t.graph.listed }) :
    Swept w t where
  listed := hlisted
  spring r := by
    rw [hst.spring]
    exact hu.spring r
  size := by rw [hst.springs, hu.size]
  nodes := by
    have hgone : (u.expired.map fun r => (u.spring r).id) =
        w.expired.map fun r => (w.spring r).id := by
      rw [hu.expired]
      exact List.map_congr_left fun r _ => by rw [hu.spring r]
    have hnodes := nodes_of_stages hw ht hu hst (by
      rw [hlisted, filter_expired, hu.expired, hu.alike.listed])
    rw [hgone] at hnodes
    -- the sub-steps leave ids alone, those of the nodes and those that they keep
    have hids := congrArg (List.map fun p : Id × List Id =>
      (p.1, p.2.filter fun i => some i ∉ w.expired.map fun r => (w.spring r).id)) hu.nodes
    rw [List.map_map, List.map_map] at hids
    exact hnodes.trans hids
  graph := hgraph

theorem advance_swept (hw : w.Sound) (hdt : ¬ dt ≤ 0.0) :
    (advance dt).wp (fun o t => o = .ok () → Swept w t) w := by
  refine ((advance_spec hw dt).and ((advance_graph hw dt).and (advance_listed hw hdt))).mono
    fun o t => ?_
  rintro ⟨⟨ht, u, hu, hst⟩, ⟨hgraph, -⟩, hlisted⟩ ho
  exact swept_of_stages hw ht.sound hu hst (hlisted ho) hgraph

end Scene

namespace Bench

/-- After every run, a frame of the scene that succeeds changes no list but by taking expired
springs away, and of a spring it changes nothing but the strain. A frame of no or negative length
does nothing at all. -/
theorem swept_after_run (c : Config K) (springs : Arena (Spring K))
    (quantities : Arena (Quantity K)) (ops : List (Op K)) (dt : K) :
    let w := (after ops (empty c springs quantities)).toScene
    let t := (Scene.advance dt w).state
    (¬ dt ≤ 0.0 → (Scene.advance dt w).outcome = .ok () → Scene.Swept w t) ∧
      (dt ≤ 0.0 → Scene.advance dt w = ⟨.ok (), w, []⟩) := by
  intro w t
  have hw : w.Sound := (sound_after c springs quantities ops).scene
  exact ⟨fun hdt => Scene.advance_swept hw hdt, fun hdt => Scene.advance_nothing hdt w⟩

/-- Three nodes in a row, the first tied to the second and the second to the third, by a spring that
has expired. -/
noncomputable def untiedRun : List (Op ℝ) :=
  let node (x : ℝ) : Op ℝ := .sketch (.scene (.addNode (.ofPoint ⟨x, 0⟩)))
  [node 0.0, node 0.5, node 1.0, .sketch (.scene (.tie (some 0) (some 1) none none)),
    .sketch (.scene (.tie (some 1) (some 2) none none)), .sketch (.scene (.expire 1))]

theorem swept_untied :
    let w := (after untiedRun (empty default {} {})).toScene
    let t := (Scene.advance 1 w).state
    ¬ (1 : ℝ) ≤ 0.0 ∧ (Scene.advance 1 w).outcome = .ok () ∧ Scene.Swept w t ∧
      w.graph.listed = [0, 1] ∧ t.graph.listed = [0] ∧
      (t.graph.nodes.map fun n => (n.id, n.springIds)) = [(0, [0]), (1, [0]), (2, [])] := by
  intro w t
  have hw : w.Sound := (sound_after default {} {} untiedRun).scene
  have hconfig : w.graph.config.stepping = Stepping.standard := rfl
  have hdt : ¬ (1 : ℝ) ≤ 0.0 := by norm_num
  have hmembers : w.members = [w.spring 0, w.spring 1] := rfl
  have hnum : w.Numeric := by
    unfold Scene.Numeric
    rw [hmembers]
    exact List.forall_mem_cons.2 ⟨rfl, List.forall_mem_singleton.2 rfl⟩
  have hok : (Scene.advance 1 w).outcome = .ok () :=
    Scene.advance_ok hw hnum (hconfig ▸ Stepping.splits_standard)
  have hswept : Scene.Swept w t := (swept_after_run default {} {} untiedRun 1).1 hdt hok
  exact ⟨hdt, hok, hswept, rfl, hswept.listed, hswept.nodes⟩

end Bench

end Linkage
