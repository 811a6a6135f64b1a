import Linkage.Proofs.Bench

/-!
# A refresh mends the sketch

Nodes and springs may be deleted behind the back of the quantities over them. The next refresh takes
away what lost a node and nothing else, so that all that is left can be read and kept
(`Bench.mended_after_run`). On its way it never meets a bound that refers to nothing: references are
to declared quantities at all times (`Sketch.Sound`), so the warning for one that is not is never
given (`Sketch.refresh_intact`).
-/

namespace Linkage

open Act

variable {K : Type}

/-- Not the warning that a bound refers to nothing. -/
def Event.Intact (e : Event K) : Prop := ∀ i, e ≠ .referenceMissing i

variable [Scalar K]

/-! ### Looking for references -/

namespace Quantity

theorem lead_intact (q : Quantity K) (a b : Point K) (clamped : Bool) (c i : Id) (w : Scene K) :
    (q.lead a b clamped c i).tells Event.Intact w := by
  unfold lead
  rw [tells_bind_read]
  split
  · exact tells_pure ()
  · refine tells_bind_of_forall (tells_ofExcept _) fun p t => ?_
    exact tells_bind_of_forall (tells_ofExcept _) fun s t => tells_change _

theorem impose_intact (q : Quantity K) (lower upper : Option (Number K)) (clamped : Bool)
    (w : Scene K) : (q.impose lower upper clamped).tells Event.Intact w := by
  have bounds : ∀ lower upper (t : Scene K),
      (forEach (Scene.boundSpring · lower upper) (q.owned w)).tells Event.Intact t :=
    fun _ _ _ => tells_forEach_of_forall _ fun _ _ _ => tells_change _
  unfold impose
  rw [tells_bind_read]
  refine tells_bind_of_forall (tells_ofExcept _) fun p t => ?_
  cases q.kind with
  | distance => exact bounds _ _ t
  | angle i => exact tells_bind_of_forall (tells_ofExcept _) fun c t => bounds _ _ t
  | rail => exact tells_forEach_of_forall _ fun c _ => q.lead_intact p.1 p.2 clamped c.1 c.2
  | unknown => exact tells_fail _
  | lacking name nodes => exact tells_fail _

end Quantity

theorem Scene.deleteSpring_intact (k : Key) (w : Scene K) :
    (deleteSpring k).tells Event.Intact w := by
  unfold deleteSpring
  rw [tells_bind_read]
  split
  · refine tells_bind_of_forall (tells_change _) fun _ t => ?_
    exact (tells_report _).2 fun i e => by cases e
  · exact (tells_report _).2 fun i e => by cases e

namespace Sketch

variable {w t : Sketch K} {r : Ref} {b : Option (Limit K)}

omit [Scalar K] in
theorem needQuantity_intact (k : Key) (w : Sketch K) : (needQuantity k).tells Event.Intact w := by
  unfold needQuantity
  rw [tells_bind_read]
  split
  · exact tells_pure _
  · exact tells_fail _

theorem release_intact (rail node : Key) (w : Sketch K) :
    (release rail node).tells Event.Intact w := by
  unfold release
  refine tells_bind_of_forall (needQuantity_intact rail w) fun r t => ?_
  rw [tells_bind_read]
  split
  · exact tells_pure ()
  · next s _ =>
    refine tells_bind_of_forall (tells_change _) fun _ t => ?_
    refine tells_bind_of_forall (Scene.deleteSpring_intact (some s) t.toScene) fun _ t => ?_
    exact (tells_report _).2 fun i e => by cases e

theorem withdraw_intact (k : Key) (w : Sketch K) : (withdraw k).tells Event.Intact w := by
  unfold withdraw
  refine tells_bind_of_forall ((tells_report _).2 fun i e => by cases e) fun _ t => ?_
  rw [tells_bind_read]
  split
  · exact (tells_report _).2 fun i e => by cases e
  · refine tells_bind_of_forall ?_ fun _ t => ?_
    · exact tells_forEach_of_forall _ fun i _ t => Scene.deleteSpring_intact (some i) t.toScene
    refine tells_bind_of_forall (tells_change _) fun _ t => ?_
    refine tells_bind_of_forall (tells_change _) fun _ t => ?_
    exact (tells_report _).2 fun i e => by cases e

theorem prune_intact (w : Sketch K) : (prune : Act K (Sketch K) Unit).tells Event.Intact w := by
  unfold prune
  rw [tells_bind_read]
  refine tells_forEach_of_forall _ fun r _ t => ?_
  unfold pruneOne
  rw [tells_bind_read, tells_ite]
  split
  · refine tells_forEach_of_forall _ fun c _ t => ?_
    rw [tells_bind_read]
    split
    · exact tells_pure ()
    · exact release_intact _ _ t
  · refine tells_bind_of_forall ((tells_report _).2 fun i e => by cases e) fun _ t => ?_
    exact withdraw_intact _ t

/-- A reference to a declared quantity is found. -/
theorem valueOf_intact (h : w.Backed b) : (valueOf b).tells Event.Intact w := by
  unfold valueOf
  split
  · exact tells_pure _
  · exact tells_pure _
  · next i =>
    rw [tells_bind_read]
    cases hr : w.quantityRef? (some i) with
    | some r => exact tells_bind_of_forall (tells_ofExcept _) fun _ _ => tells_pure _
    | none =>
      obtain ⟨r, hd, hid⟩ := h i rfl
      exact absurd (congrArg some hid) (quantityRef?_eq_none_iff.1 hr r hd)

theorem refreshOne_intact (h : w.Sound) (hr : r ∈ w.declared) :
    (refreshOne r).tells Event.Intact w := by
  unfold refreshOne
  rw [tells_bind_read]
  refine tells_bind_look (valueOf_spec w _) (valueOf_intact (h.lower r hr)) fun lo _ => ?_
  refine tells_bind_look (valueOf_spec w _) (valueOf_intact (h.upper r hr)) fun hi _ => ?_
  exact Quantity.impose_intact _ lo hi _ w.toScene

/-- All references are found when the springs of all quantities are set. -/
theorem refresh_intact (h : w.Sound) : (refresh none).tells Event.Intact w := by
  unfold refresh
  refine tells_bind.2 ⟨prune_intact w, fun _ _ => ?_⟩
  have hu : (prune w).state.Sound := (prune_shrunk h).sound
  rw [tells_bind_read]
  refine tells_bind.2 ⟨?_, fun _ _ => tells_pure ()⟩
  -- the round is over what was declared at its start, so that it must stay declared
  refine tells_forEach (I := fun t => t.Sound ∧ t.declared = (prune w).state.declared) ⟨hu, rfl⟩ ?_
  rintro r hr t ⟨ht, hd⟩
  have hrt : r ∈ t.declared := hd ▸ hr
  refine ⟨refreshOne_intact ht hrt, (refreshOne_shrunk ht hrt).mono fun _ t' ht' => ?_⟩
  exact ⟨ht'.1.sound, ht'.2.trans hd⟩

end Sketch

/-- After every run a refresh without a frame succeeds, and it never gives the warning that a bound
refers to nothing. Then every node of a declared quantity and every captive is there, and every
reference is to a declared quantity. A quantity stays if and only if all nodes that it is declared
over are there, and a captive of one that stays does if and only if its node is there. -/
theorem Bench.mended_after_run (c : Config K) (springs : Arena (Spring K))
    (quantities : Arena (Quantity K)) (ops : List (Op K)) :
    let w := after ops (empty c springs quantities)
    let done := (Sketch.refresh none).onSketch w
    let t := done.state
    done.outcome = .ok () ∧ (∀ i, .referenceMissing i ∉ done.events) ∧
      (∀ r ∈ t.declared, (∀ i ∈ (t.quantity r).nodeIds, t.isNode (some i)) ∧
        (∀ d ∈ (t.quantity r).captives, t.isNode (some d.1)) ∧
        t.Backed (t.quantity r).lower ∧ t.Backed (t.quantity r).upper) ∧
      (∀ r, r ∈ t.declared ↔
        r ∈ w.declared ∧ ∀ i ∈ (w.quantity r).nodeIds, w.isNode (some i)) ∧
      ∀ r ∈ t.declared, (t.quantity r).nodeIds = (w.quantity r).nodeIds ∧
        (t.quantity r).captives = (w.quantity r).captives.filter fun d => w.isNode (some d.1) := by
  intro w done t
  have h : w.toSketch.Sound := sound_after c springs quantities ops
  obtain ⟨hok, hsound, ⟨htidy, -⟩, -⟩ := Sketch.refresh_none h
  have hrefreshed : Sketch.Refreshed w.toSketch t.toSketch := Sketch.refresh_refreshed h none
  refine ⟨hok, fun i hi => Sketch.refresh_intact h _ hi i rfl, fun r hr => ?_,
    hrefreshed.declared, fun r hr => ?_⟩
  · exact ⟨(htidy r hr).1, (htidy r hr).2, hsound.lower r hr, hsound.upper r hr⟩
  · obtain ⟨_, _, _, e⟩ := hrefreshed.kept r hr
    rw [e]
    exact ⟨rfl, rfl⟩

end Linkage
