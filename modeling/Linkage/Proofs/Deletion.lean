import Linkage.Proofs.Bench

/-!
# Two ways to delete a node

A node may be deleted with the quantities over it, or from the scene alone; in that case the next
refresh finds out what is missing. Quantities, captives and springs go in another order then, and
references are opened at another time.

`Sketch.Cut` says what is left in either case, and `Cut.unique` that it can be one thing only.
-/

namespace Linkage.Sketch

open Act

variable {K : Type} [Scalar K] {w t u : Sketch K} {k : Key}

/-! ### Sketches that differ in what is withdrawn -/

/-- The same scene with the same quantities declared over it. What is left of withdrawn quantities
does not count. -/
structure Same (w t : Sketch K) : Prop where
  scene : t.toScene = w.toScene
  declared : t.declared = w.declared
  quantity : ∀ r ∈ w.declared, t.quantity r = w.quantity r
  nextQuantity : t.nextQuantity = w.nextQuantity

namespace Same

omit [Scalar K] in
theorem reads (h : Same w t) : Reads w t := by
  refine ⟨fun k => ?_, h.quantity, fun k => by rw [h.scene], by rw [clamped, clamped, h.scene]⟩
  unfold quantityRef?
  rw [h.declared]
  exact List.find?_congr fun r hr => by rw [h.quantity r hr]

omit [Scalar K] in
theorem symm (h : Same w t) : Same t w :=
  ⟨h.scene.symm, h.declared.symm, fun r hr => (h.quantity r (h.declared ▸ hr)).symm,
    h.nextQuantity.symm⟩

/-- Their springs are set alike. -/
theorem reset (h : Same w t) (hw : w.Sound) {v v' : Scene K}
    (hv : Scene.Reset w.toScene v (w.ownedIds w.declared) w.Kept)
    (hv' : Scene.Reset t.toScene v' (t.ownedIds t.declared) t.Kept) :
    Same (w.withScene v) (t.withScene v') := by
  have hids : t.ownedIds t.declared = w.ownedIds w.declared := by
    unfold ownedIds
    rw [h.declared]
    exact List.flatMap_congr fun r hr => by rw [h.quantity r hr]
  rw [h.scene, hids] at hv'
  have hkept : Scene.Reset w.toScene v' (w.ownedIds w.declared) w.Kept := by
    refine hv'.mono fun i _ s s' hk r hr => ?_
    have hrt : t.Owns r i := ⟨h.declared ▸ hr.1, (h.quantity r hr.1).symm ▸ hr.2⟩
    exact h.symm.reads.keeps hrt.1 (hk r hrt)
  exact ⟨reset_unique hw hkept hv, h.declared, h.quantity, h.nextQuantity⟩

end Same

/-! ### What is left without a node -/

/-- The node is there and is another one than that of `k`. -/
def Stays (w : Sketch K) (k : Key) (i : Id) : Prop := w.isNode (some i) ∧ some i ≠ k

/-- The node is gone, and so is all that wanted for it or for nodes that were missing before. -/
structure Cut (k : Key) (w t : Sketch K) : Prop extends Shrunk w t, Lessened (w.Stays k) w t where
  within : t.Within (w.Stays k)
  springs : t.springs = w.springs
  listed : ∀ s, s ∈ t.graph.listed ↔ s ∈ w.graph.listed ∧ (w.spring s).contains k = false ∧
    ∀ r i, w.Owns r i → (w.spring s).id = some i → t.Owns r i
  listed_sublist : t.graph.listed.Sublist w.graph.listed
  connections : t.graph.connections = w.graph.connections.filter fun c => !c.contains k
  places : (t.graph.nodes.map fun n => { n with springIds := [] }) =
    (w.graph.nodes.filter fun n => some n.id != k).map fun n => { n with springIds := [] }
  nextNode : t.graph.nextNode = w.graph.nextNode
  nextSpring : t.graph.nextSpring = w.graph.nextSpring

theorem Cut.unique (h : w.Sound) (ht : Cut k w t) (hu : Cut k w u) : Same t u := by
  have hdecl : u.declared = t.declared :=
    Lessened.declared_unique h ht.toLessened hu.toLessened ht.within hu.within
  have hquantity : ∀ r ∈ t.declared, u.quantity r = t.quantity r := fun r hr =>
    Lessened.quantity_unique h ht.toLessened hu.toLessened ht.within hu.within ht.toShrunk
      hu.toShrunk hr
  have howns : ∀ r i, u.Owns r i ↔ t.Owns r i := by
    intro r i
    unfold Owns
    rw [hdecl]
    exact and_congr_right fun hr => by rw [hquantity r hr]
  have hlisted : u.graph.listed = t.graph.listed := by
    refine eq_of_sublist h.scene.listed_nodup hu.listed_sublist ht.listed_sublist fun s => ?_
    rw [hu.listed, ht.listed]
    simp only [howns]
  refine ⟨?_, hdecl, hquantity, hu.nextQuantity.trans ht.nextQuantity.symm⟩
  exact ht.sound.scene.ext hu.sound.scene (hu.springs.trans ht.springs.symm)
    (hu.scene.config.trans ht.scene.config.symm) hlisted (hu.places.trans ht.places.symm)
    (hu.connections.trans ht.connections.symm) (hu.nextNode.trans ht.nextNode.symm)
    (hu.nextSpring.trans ht.nextSpring.symm)

/-- Something may go before the node does, and the rest goes afterwards. -/
theorem cut_of_stages {v : Scene K} (hu : Shed (fun i => some i ≠ k) w u)
    (hv : Scene.Erased k u.toScene v) (ht : Trimmed (u.withScene v) t) (htidy : t.Tidy) :
    Cut k w t := by
  have huv : Shrunk u (u.withScene v) :=
    shrunk_withScene hu.sound hv.onward (.of_springs hv.springs)
  have hnode : ∀ i, v.isNode (some i) ↔ w.Stays k i := fun i => by
    rw [hv.isNode, hu.struck.isNode]
    rfl
  have hut : Lessened (w.Stays k) u t :=
    (Lessened.withScene u v).trans (ht.mono fun i => (hnode i).2).toLessened
  have hwithin : t.Within (w.Stays k) := fun r hr => by
    obtain ⟨hn, hc⟩ := ht.within htidy r hr
    exact ⟨fun i hi => (hnode i).1 (hn i hi), fun c hc' => (hnode c.1).1 (hc c hc')⟩
  have hspring : ∀ s, u.spring s = w.spring s := hu.struck.spring
  have hvspring : ∀ s, v.spring s = w.spring s := fun s =>
    (congrArg (·.get s) hv.springs).trans (hspring s)
  refine
    { toShrunk := hu.toShrunk.trans (huv.trans ht.toShrunk)
      toLessened := (hu.toLessened.mono fun i hi => hi.2).trans hut
      within := hwithin
      springs := ht.struck.springs.trans (hv.springs.trans hu.struck.springs)
      listed := fun s => ?_
      listed_sublist := ?_
      connections := ?_
      places := ht.struck.places.trans (hv.places.trans (hu.struck.places_filter k))
      nextNode := ht.struck.nextNode.trans (hv.nextNode.trans hu.struck.nextNode)
      nextSpring := ht.struck.nextSpring.trans (hv.nextSpring.trans hu.struck.nextSpring) }
  · rw [ht.listed]
    show (s ∈ v.graph.listed ∧ ∀ r i, u.Owns r i → (v.spring s).id = some i → t.Owns r i) ↔ _
    rw [hv.listed, List.mem_filter, hu.listed, hspring, hvspring, Bool.not_eq_true']
    refine ⟨fun ⟨⟨⟨hs, how⟩, hk⟩, hot⟩ => ⟨hs, hk, fun r i hi hid => ?_⟩,
      fun ⟨hs, hk, hot⟩ => ⟨⟨⟨hs, fun r i hi hid => ?_⟩, hk⟩, fun r i hi hid => ?_⟩⟩
    · exact hot r i (how r i hi hid) hid
    · exact ht.owns r i (hot r i hi hid)
    · exact hot r i (hu.owns r i hi) hid
  · refine ht.struck.listed.trans (List.Sublist.trans ?_ hu.struck.listed)
    show v.graph.listed.Sublist _
    rw [hv.listed]
    exact List.filter_sublist
  · rw [ht.struck.connections]
    show v.graph.connections = _
    rw [hv.connections, hu.struck.connections]

/-! ### Deleting and refreshing -/

theorem deleteNode_deleted (h : w.Sound) (k : Key) :
    (Scene.deleteNode k).onScene.wp (fun o t => o = .ok () ∧ Deleted k w t) w := by
  rw [wp_onScene]
  refine (Scene.deleteNode_spec h.scene k).mono fun o v => ?_
  rintro ⟨rfl, hv⟩
  exact ⟨rfl, w, v, .refl h, hv, rfl⟩

/-- A refresh takes away what the deletion has left over and sets the springs of the rest. -/
theorem refresh_deleted (ht : Deleted k w t) :
    (refresh none).wp (fun o x => o = .ok () ∧ ∃ y v, Cut k w y ∧
      Scene.Reset y.toScene v (y.ownedIds y.declared) y.Kept ∧ x = y.withScene v) t := by
  obtain ⟨u, v, hu, hv, rfl⟩ := ht
  have hsound : (u.withScene v).Sound := (onward_withScene hu.sound hv.onward).sound
  refine (refresh_stages hsound none).mono fun o x => ?_
  rintro ⟨y, v', -, z, ⟨hy, htidy⟩, hv', -, rfl, hnone⟩
  obtain ⟨rfl, rfl⟩ := hnone rfl
  exact ⟨rfl, y, z, cut_of_stages hu hv hy htidy, hv', rfl⟩

/-- Whatever went before the node, a refresh leaves the same. -/
theorem deleted_refresh_same (h : w.Sound) {x y : Act K (Sketch K) Unit}
    (hx : x.wp (fun o t => o = .ok () ∧ Deleted k w t) w)
    (hy : y.wp (fun o t => o = .ok () ∧ Deleted k w t) w) :
    (do x; refresh none : Act K (Sketch K) Unit).wp (fun o t => o = .ok () ∧
      (do y; refresh none : Act K (Sketch K) Unit).wp (fun o' t' => o' = .ok () ∧ Same t t') w)
      w := by
  rw [wp_bind]
  refine hx.mono fun o t => ?_
  rintro ⟨rfl, ht⟩
  rw [next_ok]
  refine (refresh_deleted ht).mono fun o t' => ?_
  rintro ⟨rfl, z, v, hz, hv, rfl⟩
  refine ⟨rfl, ?_⟩
  rw [wp_bind]
  refine hy.mono fun o t => ?_
  rintro ⟨rfl, ht⟩
  rw [next_ok]
  refine (refresh_deleted ht).mono fun o t' => ?_
  rintro ⟨rfl, z', v', hz', hv', rfl⟩
  exact ⟨rfl, (hz.unique h hz').reset hz.sound hv hv'⟩

end Linkage.Sketch

namespace Linkage.Bench

open Act

variable {K : Type} [Scalar K]

/-- After every run, whether a node is deleted with the quantities over it or from the scene alone,
and whether or not it is there, a refresh succeeds afterwards and leaves the same scene with the
same quantities. -/
theorem deletions_agree_after_run (c : Config K) (springs : Arena (Spring K))
    (quantities : Arena (Quantity K)) (ops : List (Op K)) (k : Key) :
    let w := after ops (empty c springs quantities)
    let whole := (do Sketch.withdrawNode k; Sketch.refresh none : Act K (Sketch K) Unit).onSketch w
    let direct :=
      (do (Scene.deleteNode k).onScene; Sketch.refresh none : Act K (Sketch K) Unit).onSketch w
    whole.outcome = .ok () ∧ direct.outcome = .ok () ∧
      Sketch.Same whole.state.toSketch direct.state.toSketch := by
  intro w whole direct
  have h : w.toSketch.Sound := sound_after c springs quantities ops
  exact Sketch.deleted_refresh_same h (Sketch.withdrawNode_deleted h k)
    (Sketch.deleteNode_deleted h k)

end Linkage.Bench
