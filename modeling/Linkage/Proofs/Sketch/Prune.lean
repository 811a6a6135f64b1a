import Linkage.Proofs.Sketch.Shed
import Linkage.Proofs.Sketch.Withdraw

/-!
# Pruning

`prune_spec`: what lost a node is gone in the end and the rest is tidy. `Sketch.Trimmed` says of
what is left that it is as it was: quantities less the captives that are gone, bounds less the
references to quantities that are gone.

To withdraw a node is the same loop over the quantities (`forEach_shed`), before the node is missing
and with it (`Sketch.Deleted`).
-/

namespace Linkage.Sketch

open Act

variable {K : Type} {w t u : Sketch K} {k : Key} {r : Ref} {i c : Id} {P : Id → Prop}

/-- All nodes that the quantity is declared over are there. -/
def Whole (w : Sketch K) (r : Ref) : Prop := ∀ i ∈ (w.quantity r).nodeIds, w.isNode (some i)

/-- A declared quantity lacks neither nodes nor captives. -/
def TidyAt (w : Sketch K) (r : Ref) : Prop :=
  r ∈ w.declared → w.Whole r ∧ ∀ c ∈ (w.quantity r).captives, w.isNode (some c.1)

def Tidy (w : Sketch K) : Prop := ∀ r, w.TidyAt r

variable [Scalar K]

/-- Nothing was changed but that quantities and captives without their nodes are gone. -/
abbrev Trimmed (w t : Sketch K) : Prop := Shed (fun i => w.isNode (some i)) w t

namespace Shed

theorem whole_iff (h : Shed P w t) (hr : r ∈ t.declared) : t.Whole r ↔ w.Whole r := by
  have hnode : ∀ k, t.isNode k = w.isNode k := h.struck.isNode
  rw [Whole, Whole, h.nodeIds_eq hr]
  simp only [hnode]

/-- What was tidy once stays so. -/
theorem tidyAt (h : Shed P w t) (hr : w.TidyAt r) : t.TidyAt r := by
  intro hrt
  obtain ⟨hw, hc⟩ := hr (h.declared.subset hrt)
  refine ⟨(h.whole_iff hrt).2 hw, fun c hct => ?_⟩
  rw [h.struck.isNode]
  exact hc c ((h.captives r hrt).1.subset hct)

theorem within (h : Shed P w t) (ht : t.Tidy) : t.Within fun i => w.isNode (some i) := by
  have hnode : ∀ k, t.isNode k → w.isNode k := fun k hk => by rwa [← h.struck.isNode]
  intro r hr
  obtain ⟨hw, hc⟩ := ht r hr
  exact ⟨fun i hi => hnode _ (hw i hi), fun c hc' => hnode _ (hc c hc')⟩

end Shed

/-! ### One captive, one quantity -/

theorem release_shed (h : w.Sound) (hr : r ∈ w.declared) (hc : ¬ P c) :
    (release (some (w.quantity r).id) (some c)).wp
      (fun o t => o = .ok () ∧ Shed P w t ∧ t.declared = w.declared ∧
        ∀ d ∈ (t.quantity r).captives, d.1 ≠ c) w := by
  have hk := h.quantityRef?_id hr
  cases hs : (w.quantity r).springHolding? (some c) with
  | none =>
    refine (release_absent hk hs).mono fun o t => ?_
    rintro ⟨rfl, ht⟩
    rw [ht]
    exact ⟨rfl, .refl h, rfl, Quantity.springHolding?_eq_none hs⟩
  | some s =>
    refine (release_spec h hk hs).mono fun o t => ?_
    rintro ⟨rfl, v, hv, rfl⟩
    refine ⟨rfl, shed_release h hr hs hc hv, rfl, fun d hd => ?_⟩
    have hself : ((w.changeQuantity r (·.release (some c) s)).withScene v).quantity r =
        (w.quantity r).release (some c) s := quantity_changeQuantity_self _ (h.declared_lt r hr)
    rw [hself] at hd
    simpa using (List.mem_filter.1 hd).2

/-- The quantity goes, and no other one does. -/
theorem withdraw_shed (h : w.Sound) (hr : r ∈ w.declared)
    (hP : ¬ ∀ i ∈ (w.quantity r).nodeIds, P i) :
    (withdraw (some (w.quantity r).id)).wp
      (fun o t => o = .ok () ∧ Shed P w t ∧ ∀ s, s ∈ t.declared ↔ s ∈ w.declared ∧ s ≠ r) w := by
  refine (withdraw_spec h (h.quantityRef?_id hr)).mono fun o t => ?_
  rintro ⟨rfl, v, hv, rfl⟩
  have hwv := (onward_withScene h hv.onward).sound
  exact ⟨rfl, shed_retire h hr hP hv, fun s => (quantity_retire hwv (h.quantityRef?_id hr) s).1⟩

/-- Captives that are gone are let go one by one. -/
theorem forEach_release_trimmed (h : w.Sound) (hr : r ∈ w.declared) (cs : List Id) :
    (forEach (fun c => do
      if (← read).isNode (some c) then pure ()
      else release (some (w.quantity r).id) (some c)) cs).wp
      (fun o t => o = .ok () ∧ Trimmed w t ∧ t.declared = w.declared ∧
        ∀ d ∈ (t.quantity r).captives, d.1 ∈ cs → t.isNode (some d.1)) w := by
  refine wp_forEach_ok (I := fun done t => Trimmed w t ∧ t.declared = w.declared ∧
    ∀ d ∈ (t.quantity r).captives, d.1 ∈ done → t.isNode (some d.1)) ⟨.refl h, rfl, by simp⟩ ?_
  rintro done c rest - t ⟨ht, hd, hdone⟩
  have hrt : r ∈ t.declared := hd ▸ hr
  rw [wp_bind, wp_read, next_ok, wp_ite]
  split
  · next hc =>
    refine ⟨rfl, ht, hd, fun d hdt hmem => ?_⟩
    rcases List.mem_append.1 hmem with hmem | hmem
    · exact hdone d hdt hmem
    · rw [List.mem_singleton.1 hmem]
      exact hc
  · next hc =>
    have hcw : ¬ w.isNode (some c) := by rwa [ht.struck.isNode] at hc
    rw [← ht.id_eq hrt]
    refine (release_shed (P := fun i => w.isNode (some i)) ht.sound hrt hcw).mono fun o t' => ?_
    rintro ⟨rfl, ht', hd', hne⟩
    refine ⟨rfl, ht.trans ht', hd'.trans hd, fun d hdt hmem => ?_⟩
    rcases List.mem_append.1 hmem with hmem | hmem
    · rw [ht'.struck.isNode]
      exact hdone d ((ht'.captives r (hd' ▸ hrt)).1.subset hdt) hmem
    · exact absurd (List.mem_singleton.1 hmem) (hne d hdt)

/-- The quantity is tidy in the end or it is gone; no other one goes. -/
theorem pruneOne_spec (h : w.Sound) (hr : r ∈ w.declared) :
    (pruneOne r).wp
      (fun o t => o = .ok () ∧ Trimmed w t ∧ t.TidyAt r ∧
        ∀ s ∈ w.declared, s ≠ r → s ∈ t.declared) w := by
  unfold pruneOne
  rw [wp_bind, wp_read, next_ok, wp_ite]
  split
  · next hw =>
    refine (forEach_release_trimmed h hr _).mono fun o t => ?_
    rintro ⟨rfl, ht, hd, hc⟩
    refine ⟨rfl, ht, fun hrt => ⟨(ht.whole_iff hrt).2 (List.all_eq_true.1 hw), fun d hdt => ?_⟩,
      fun s hs _ => hd ▸ hs⟩
    exact hc d hdt (List.mem_map.2 ⟨d, (ht.captives r hrt).1.subset hdt, rfl⟩)
  · next hw =>
    rw [wp_bind, wp_report, next_ok]
    refine (withdraw_shed h hr fun hall => hw (List.all_eq_true.2 hall)).mono fun o t => ?_
    rintro ⟨rfl, ht, hmem⟩
    exact ⟨rfl, ht, fun hrt => absurd rfl ((hmem r).1 hrt).2,
      fun s hs hne => (hmem s).2 ⟨hs, hne⟩⟩

/-! ### All quantities -/

/-- A loop over all quantities of which each round sheds its own one at most. What a round brings
about for its quantity, the others keep. -/
theorem forEach_shed {f : Ref → Act K (Sketch K) Unit} {D : Ref → Sketch K → Prop} (h : w.Sound)
    (step : ∀ t, Shed P w t → ∀ r ∈ t.declared, (f r).wp (fun o t' => o = .ok () ∧ Shed P t t' ∧
      D r t' ∧ ∀ s ∈ t.declared, s ≠ r → s ∈ t'.declared) t)
    (keep : ∀ r t t', Shed P t t' → D r t → D r t') :
    (forEach f w.declared).wp
      (fun o t => o = .ok () ∧ Shed P w t ∧ ∀ r ∈ w.declared, D r t) w := by
  refine (wp_forEach_ok (I := fun done t => Shed P w t ∧ (∀ r ∈ done, D r t) ∧
    ∀ r ∈ w.declared, r ∉ done → r ∈ t.declared) ⟨.refl h, by simp, fun r hr _ => hr⟩ ?_).mono ?_
  · rintro done r rest hl t ⟨ht, hdone, hrest⟩
    have hnodup : (done ++ r :: rest).Nodup := hl ▸ h.declared_nodup
    have hrt : r ∈ t.declared := hrest r (by simp [hl]) fun hmem =>
      List.disjoint_of_nodup_append hnodup hmem (by simp)
    refine (step t ht r hrt).mono fun o t' => ?_
    rintro ⟨rfl, ht', hr, hothers⟩
    refine ⟨rfl, ht.trans ht', fun s hs => ?_, fun s hs hns => ?_⟩
    · rcases List.mem_append.1 hs with hs | hs
      · exact keep s t t' ht' (hdone s hs)
      · rw [List.mem_singleton.1 hs]
        exact hr
    · rw [List.mem_append, not_or] at hns
      exact hothers s (hrest s hs hns.1) fun e => hns.2 (List.mem_singleton.2 e)
  · rintro o t ⟨rfl, ht, hdone, -⟩
    exact ⟨rfl, ht, hdone⟩

/-- Pruning succeeds, and what it leaves is tidy. -/
theorem prune_spec (h : w.Sound) :
    prune.wp (fun o t => o = .ok () ∧ Trimmed w t ∧ t.Tidy) w := by
  unfold prune
  rw [wp_bind, wp_read, next_ok]
  refine (forEach_shed (P := fun i => w.isNode (some i)) (D := fun r t => t.TidyAt r) h
    (fun t ht r hr => ?_) fun _ _ _ ht' hr => ht'.tidyAt hr).mono fun o t => ?_
  · refine (pruneOne_spec ht.sound hr).mono fun o t' => ?_
    rintro ⟨rfl, ht', hr'⟩
    exact ⟨rfl, ht'.mono fun i hi => by rwa [ht.struck.isNode], hr'⟩
  · rintro ⟨rfl, ht, htidy⟩
    exact ⟨rfl, ht, fun r hrt => htidy r (ht.declared.subset hrt) hrt⟩

/-- Where nothing is missing there is nothing to prune. -/
theorem prune_tidy (h : w.Tidy) : prune.wp (fun o t => o = .ok () ∧ t = w) w := by
  unfold prune
  rw [wp_bind, wp_read, next_ok]
  refine wp_forEach_ok (I := fun _ t => t = w) rfl ?_
  rintro done r rest hl t ht
  rw [ht]
  obtain ⟨hw, hc⟩ := h r (by simp [hl])
  unfold pruneOne
  rw [wp_bind, wp_read, next_ok, wp_ite, if_pos (List.all_eq_true.2 hw)]
  refine wp_forEach_ok (I := fun _ t => t = w) rfl ?_
  rintro done c rest hl t ht
  rw [ht]
  have hmem : c ∈ (w.quantity r).captives.map Prod.fst := by
    rw [hl]
    simp
  obtain ⟨d, hd, rfl⟩ := List.mem_map.1 hmem
  rw [wp_bind, wp_read, next_ok, wp_ite, if_pos (hc d hd)]
  exact ⟨rfl, rfl⟩

theorem prune_shrunk (h : w.Sound) : prune.wp (fun _ t => Shrunk w t) w :=
  (prune_spec h).mono fun _ _ ht => ht.2.1.toShrunk

theorem readingOf_shrunk (h : w.Sound) (k : Key) :
    (readingOf k).wp (fun _ t => Shrunk w t) w := by
  unfold readingOf
  refine wp_bind_keep (prune_shrunk h) fun _ t ht => ?_
  exact wp_bind_needQuantity ht fun r _ => ht

theorem valueNow_shrunk (h : w.Sound) (b : Option (Limit K)) :
    (valueNow b).wp (fun _ t => Shrunk w t) w := by
  unfold valueNow
  refine wp_bind_keep (prune_shrunk h) fun _ t ht => ?_
  refine (valueOf_spec t b).mono fun o t' ht' => ?_
  rw [ht']
  exact ht

/-! ### A node goes -/

omit [Scalar K] in
/-- A quantity that is not over the node and does not hold it has nothing to do with it. -/
theorem clear_of_passed {q : Quantity K} (hover : ¬ q.isOver k)
    (hheld : ¬ (q.springHolding? k).isSome) :
    (∀ i ∈ q.nodeIds, some i ≠ k) ∧ ∀ c ∈ q.captives, some c.1 ≠ k := by
  refine ⟨Quantity.isOver_eq_false_iff.1 (Bool.not_eq_true _ ▸ hover), fun c hc e => ?_⟩
  rw [← e, Bool.not_eq_true, Option.isSome_eq_false_iff, Option.isNone_iff_eq_none] at hheld
  exact Quantity.springHolding?_eq_none hheld c hc rfl

omit [Scalar K] in
/-- What is left has nothing to do with nodes that it had nothing to do with. -/
theorem Lessened.clear (h : Lessened P w t) (hr : r ∈ t.declared)
    (hw : (∀ i ∈ (w.quantity r).nodeIds, P i) ∧ ∀ c ∈ (w.quantity r).captives, P c.1) :
    (∀ i ∈ (t.quantity r).nodeIds, P i) ∧ ∀ c ∈ (t.quantity r).captives, P c.1 := by
  rw [h.nodeIds_eq hr]
  exact ⟨hw.1, fun c hc => hw.2 c ((h.captives r hr).1.subset hc)⟩

/-- What is over the node goes first and what holds it lets go; then the node goes. -/
theorem withdrawNode_stages (h : w.Sound) (k : Key) :
    (withdrawNode k).wp (fun o t => o = .ok () ∧ ∃ u v, Shed (fun i => some i ≠ k) w u ∧
      u.Within (fun i => some i ≠ k) ∧ Scene.Erased k u.toScene v ∧ t = u.withScene v) w := by
  unfold withdrawNode
  rw [wp_bind, wp_report, next_ok, wp_bind, wp_read, next_ok, wp_bind]
  refine (forEach_shed (P := fun i => some i ≠ k) (D := fun r t => r ∈ t.declared →
    (∀ i ∈ (t.quantity r).nodeIds, some i ≠ k) ∧ ∀ c ∈ (t.quantity r).captives, some c.1 ≠ k) h
    (fun t ht r hr => ?_) fun r t t' ht' hclear hr =>
      ht'.toLessened.clear hr (hclear (ht'.declared.subset hr))).mono fun o u => ?_
  · rw [wp_bind, wp_read, next_ok, wp_ite]
    split
    · next hk =>
      have hover : ¬ ∀ i ∈ (t.quantity r).nodeIds, some i ≠ k := by
        rw [← Quantity.isOver_eq_false_iff, hk]
        exact Bool.noConfusion
      refine (withdraw_shed (P := fun i => some i ≠ k) ht.sound hr hover).mono fun o t' => ?_
      rintro ⟨rfl, ht', hmem⟩
      exact ⟨rfl, ht', fun hrt => absurd rfl ((hmem r).1 hrt).2,
        fun s hs hne => (hmem s).2 ⟨hs, hne⟩⟩
    · next hk =>
      rw [wp_ite]
      split
      · next hs =>
        obtain ⟨s, hs⟩ := Option.isSome_iff_exists.1 hs
        obtain ⟨c, rfl, -⟩ := Quantity.springHolding?_eq_some hs
        refine (release_shed (P := fun i => some i ≠ some c) ht.sound hr fun hne =>
          hne rfl).mono fun o t' => ?_
        rintro ⟨rfl, ht', hd, hfree⟩
        refine ⟨rfl, ht', fun hrt => ⟨?_, fun d hd e => hfree d hd (Option.some.inj e)⟩,
          fun s hs _ => hd ▸ hs⟩
        rw [ht'.nodeIds_eq hrt]
        exact Quantity.isOver_eq_false_iff.1 (Bool.not_eq_true _ ▸ hk)
      · next hs => exact ⟨rfl, .refl ht.sound, fun _ => clear_of_passed hk hs, fun s hs _ => hs⟩
  · rintro ⟨rfl, hu, hclear⟩
    rw [next_ok, wp_bind, wp_onScene]
    refine (Scene.deleteNode_spec hu.sound.scene k).mono fun o v => ?_
    rintro ⟨rfl, hv⟩
    exact ⟨rfl, u, v, hu, fun r hr => hclear r (hu.declared.subset hr) hr, hv, rfl⟩

/-- First some of what has to go anyway, then the node. -/
def Deleted (k : Key) (w t : Sketch K) : Prop :=
  ∃ u v, Shed (fun i => some i ≠ k) w u ∧ Scene.Erased k u.toScene v ∧ t = u.withScene v

theorem withdrawNode_deleted (h : w.Sound) (k : Key) :
    (withdrawNode k).wp (fun o t => o = .ok () ∧ Deleted k w t) w := by
  refine (withdrawNode_stages h k).mono fun o t => ?_
  rintro ⟨rfl, u, v, hu, -, hv, rfl⟩
  exact ⟨rfl, u, v, hu, hv, rfl⟩

theorem withdrawNode_shrunk (h : w.Sound) (k : Key) :
    (withdrawNode k).wp (fun _ t => Shrunk w t) w := by
  refine (withdrawNode_deleted h k).mono fun o t => ?_
  rintro ⟨-, u, v, hu, hv, rfl⟩
  exact hu.toShrunk.trans (shrunk_withScene hu.sound hv.onward (.of_springs hv.springs))

end Linkage.Sketch
