import Linkage.Proofs.Sketch.Change
import Mathlib.Data.List.Perm.Subperm

/-!
# What goes with a node

Quantities and captives go for want of nodes, in every operation in the same way.
`Sketch.Shed P w t` says that a quantity went only where not all of its nodes are `P`, and a captive
only where it is not `P` itself; that their springs went with them and no other spring did; and that
bounds were opened only where they referred to what went. `shed_release` and `shed_retire` are the
two ways to go.

How far it went is said by `Sketch.Within`; then one thing only is left (`declared_unique`,
`quantity_unique`), whatever the order was in which the others went.
-/

namespace Linkage.Sketch

variable {K : Type} {w t u : Sketch K} {r : Ref} {i c : Id} {b b' b'' : Option (Limit K)}
  {P P' : Id → Prop}

/-! ### Bounds -/

/-- The bound is as it was, or it is open where it referred to what is declared no more. -/
def Opened (w t : Sketch K) (b b' : Option (Limit K)) : Prop :=
  b' = b ∨ b' = none ∧
    ∃ r ∈ w.declared, r ∉ t.declared ∧ b = some (.reference (w.quantity r).id)

theorem Opened.trans (hw : t.declared.Sublist w.declared) (ht : u.declared.Sublist t.declared)
    (hid : ∀ r ∈ t.declared, (t.quantity r).id = (w.quantity r).id) (h : Opened w t b b')
    (h' : Opened t u b' b'') : Opened w u b b'' := by
  rcases h with rfl | ⟨rfl, r, hr, hrt, rfl⟩
  · rcases h' with rfl | ⟨rfl, r, hr, hru, hb⟩
    · exact .inl rfl
    · exact .inr ⟨rfl, r, hw.subset hr, hru, by rw [hb, hid r hr]⟩
  · have hb'' : b'' = none := by
      rcases h' with h' | h'
      · exact h'
      · exact h'.1
    exact .inr ⟨hb'', r, hr, fun hru => hrt (ht.subset hru), rfl⟩

theorem keepBound_opened (hr : r ∈ w.declared) (hrt : r ∉ t.declared) (b : Option (Limit K)) :
    Opened w t b (Quantity.keepBound (some (w.quantity r).id) b) := by
  unfold Quantity.keepBound
  split
  · next l =>
    split
    · next he =>
      refine .inr ⟨rfl, r, hr, hrt, ?_⟩
      cases l with
      | literal n => cases he
      | reference i => rw [Option.some.inj he]
    · exact .inl rfl
  · exact .inl rfl

/-! ### Quantities -/

/-- Of what is declared nothing is lost but quantities with a node that is not `P`, captives that
are not `P`, and references. -/
structure Lessened (P : Id → Prop) (w t : Sketch K) : Prop where
  nextQuantity : t.nextQuantity = w.nextQuantity
  declared : t.declared.Sublist w.declared
  dropped : ∀ r ∈ w.declared, r ∉ t.declared → ¬ ∀ i ∈ (w.quantity r).nodeIds, P i
  kept : ∀ r ∈ t.declared, ∃ captives springIds lower upper, t.quantity r =
    { w.quantity r with
      captives := captives, springIds := springIds, lower := lower, upper := upper }
  captives : ∀ r ∈ t.declared, (t.quantity r).captives.Sublist (w.quantity r).captives ∧
    ∀ c ∈ (w.quantity r).captives, P c.1 → c ∈ (t.quantity r).captives
  lower : ∀ r ∈ t.declared, Opened w t (w.quantity r).lower (t.quantity r).lower
  upper : ∀ r ∈ t.declared, Opened w t (w.quantity r).upper (t.quantity r).upper

namespace Lessened

theorem withScene (w : Sketch K) (v : Scene K) : Lessened P w (w.withScene v) where
  nextQuantity := rfl
  declared := .refl _
  dropped _ hr hr' := absurd hr hr'
  kept _ _ := ⟨_, _, _, _, rfl⟩
  captives _ _ := ⟨.refl _, fun _ hc _ => hc⟩
  lower _ _ := .inl rfl
  upper _ _ := .inl rfl

theorem id_eq (h : Lessened P w t) (hr : r ∈ t.declared) :
    (t.quantity r).id = (w.quantity r).id := by
  obtain ⟨_, _, _, _, e⟩ := h.kept r hr
  rw [e]

theorem nodeIds_eq (h : Lessened P w t) (hr : r ∈ t.declared) :
    (t.quantity r).nodeIds = (w.quantity r).nodeIds := by
  obtain ⟨_, _, _, _, e⟩ := h.kept r hr
  rw [e]
  rfl

theorem trans (h : Lessened P w t) (h' : Lessened P t u) : Lessened P w u where
  nextQuantity := h'.nextQuantity.trans h.nextQuantity
  declared := h'.declared.trans h.declared
  dropped r hr hru := by
    by_cases hrt : r ∈ t.declared
    · have hP := h'.dropped r hrt hru
      rwa [h.nodeIds_eq hrt] at hP
    · exact h.dropped r hr hrt
  kept r hr := by
    obtain ⟨_, _, _, _, e⟩ := h.kept r (h'.declared.subset hr)
    obtain ⟨cs, is, lo, hi, e'⟩ := h'.kept r hr
    exact ⟨cs, is, lo, hi, by rw [e', e]⟩
  captives r hr := by
    obtain ⟨hs, hc⟩ := h.captives r (h'.declared.subset hr)
    obtain ⟨hs', hc'⟩ := h'.captives r hr
    exact ⟨hs'.trans hs, fun c hcw hP => hc' c (hc c hcw hP) hP⟩
  lower r hr := (h.lower r (h'.declared.subset hr)).trans h.declared h'.declared
    (fun _ => h.id_eq) (h'.lower r hr)
  upper r hr := (h.upper r (h'.declared.subset hr)).trans h.declared h'.declared
    (fun _ => h.id_eq) (h'.upper r hr)

/-- The fewer nodes are `P`, the more may go. -/
theorem mono (h : Lessened P w t) (hP : ∀ i, P' i → P i) : Lessened P' w t :=
  { h with
    dropped := fun r hr hrt hall => h.dropped r hr hrt fun i hi => hP i (hall i hi)
    captives := fun r hr =>
      ⟨(h.captives r hr).1, fun c hc hc' => (h.captives r hr).2 c hc (hP c.1 hc')⟩ }

end Lessened

/-- What is declared has no node and no captive that is not `P`. -/
def Within (P : Id → Prop) (w : Sketch K) : Prop :=
  ∀ r ∈ w.declared, (∀ i ∈ (w.quantity r).nodeIds, P i) ∧ ∀ c ∈ (w.quantity r).captives, P c.1

theorem Lessened.mem_declared (h : Lessened P w t) (ht : t.Within P) :
    r ∈ t.declared ↔ r ∈ w.declared ∧ ∀ i ∈ (w.quantity r).nodeIds, P i := by
  refine ⟨fun hr => ⟨h.declared.subset hr, ?_⟩, fun ⟨hr, hP⟩ => ?_⟩
  · rw [← h.nodeIds_eq hr]
    exact (ht r hr).1
  · by_contra hrt
    exact h.dropped r hr hrt hP

theorem Lessened.mem_captives (h : Lessened P w t) (ht : t.Within P) (hr : r ∈ t.declared)
    (c : Id × Id) : c ∈ (t.quantity r).captives ↔ c ∈ (w.quantity r).captives ∧ P c.1 :=
  ⟨fun hc => ⟨(h.captives r hr).1.subset hc, (ht r hr).2 c hc⟩,
    fun ⟨hc, hP⟩ => (h.captives r hr).2 c hc hP⟩

variable [Scalar K]

/-! ### What is left is one thing -/

omit [Scalar K] in
theorem eq_of_sublist {α : Type} {l l₁ l₂ : List α} (hl : l.Nodup) (h₁ : l₁.Sublist l)
    (h₂ : l₂.Sublist l) (h : ∀ x, x ∈ l₁ ↔ x ∈ l₂) : l₁ = l₂ :=
  (hl.perm_iff_eq_of_sublist h₁ h₂).1
    ((List.perm_ext_iff_of_nodup (hl.sublist h₁) (hl.sublist h₂)).2 h)

/-- What refers to nothing declared had to be opened. -/
theorem Opened.eq_none (h : w.Sound) (ho : Opened w t b b') (hb : t.Backed b')
    (hid : ∀ s ∈ t.declared, s ∈ w.declared ∧ (t.quantity s).id = (w.quantity s).id)
    (hr : r ∈ w.declared) (hrt : r ∉ t.declared) (e : b = some (.reference (w.quantity r).id)) :
    b' = none := by
  rcases ho with rfl | ⟨hnone, -⟩
  · obtain ⟨s, hs, hsid⟩ := hb _ e
    have hsame : s = r := h.eq_of_id_eq (hid s hs).1 hr ((hid s hs).2.symm.trans hsid)
    exact absurd (hsame ▸ hs) hrt
  · exact hnone

/-- Where the same is declared in the end, the same bounds were opened. -/
theorem Opened.unique (h : w.Sound) (hmem : ∀ r, r ∈ u.declared ↔ r ∈ t.declared)
    (hid : ∀ s ∈ t.declared, s ∈ w.declared ∧ (t.quantity s).id = (w.quantity s).id)
    (hid' : ∀ s ∈ u.declared, s ∈ w.declared ∧ (u.quantity s).id = (w.quantity s).id)
    (h' : Opened w t b b') (h'' : Opened w u b b'') (hb : t.Backed b') (hb' : u.Backed b'') :
    b' = b'' := by
  rcases h' with rfl | ⟨rfl, r, hr, hrt, e⟩
  · rcases h'' with rfl | ⟨rfl, r, hr, hru, e⟩
    · rfl
    · exact Opened.eq_none h (.inl rfl) hb hid hr (fun hrt => hru ((hmem r).2 hrt)) e
  · exact (h''.eq_none h hb' hid' hr (fun hru => hrt ((hmem r).1 hru)) e).symm

namespace Lessened

variable (h : w.Sound) (ht : Lessened P w t) (hu : Lessened P w u) (htP : t.Within P)
  (huP : u.Within P)

include h ht hu htP huP

theorem declared_unique : u.declared = t.declared := by
  refine eq_of_sublist h.declared_nodup hu.declared ht.declared fun r => ?_
  rw [hu.mem_declared huP, ht.mem_declared htP]

theorem quantity_unique (ht' : Shrunk w t) (hu' : Shrunk w u) (hr : r ∈ t.declared) :
    u.quantity r = t.quantity r := by
  have hdecl : u.declared = t.declared := declared_unique h ht hu htP huP
  have hru : r ∈ u.declared := hdecl ▸ hr
  have hrw : r ∈ w.declared := ht.declared.subset hr
  have hmem : ∀ r, r ∈ t.declared ↔ r ∈ u.declared := fun r => by rw [hdecl]
  have hid : ∀ s ∈ t.declared, s ∈ w.declared ∧ (t.quantity s).id = (w.quantity s).id :=
    fun s hs => ⟨ht.declared.subset hs, ht.id_eq hs⟩
  have hid' : ∀ s ∈ u.declared, s ∈ w.declared ∧ (u.quantity s).id = (w.quantity s).id :=
    fun s hs => ⟨hu.declared.subset hs, hu.id_eq hs⟩
  refine (h.proper r hrw).eq_of_captives (hu'.sound.proper r hru) (ht'.sound.proper r hr)
    (hu.kept r hru) (ht.kept r hr) (fun i hi => (hu'.owns r i ⟨hru, hi⟩).2)
    (fun i hi => (ht'.owns r i ⟨hr, hi⟩).2) ?_ ?_ ?_
  · refine eq_of_sublist (h.captives_nodup hrw).of_map (hu.captives r hru).1 (ht.captives r hr).1
      fun c => ?_
    rw [hu.mem_captives huP hru, ht.mem_captives htP hr]
  · exact Opened.unique h hmem hid' hid (hu.lower r hru) (ht.lower r hr) (hu'.sound.lower r hru)
      (ht'.sound.lower r hr)
  · exact Opened.unique h hmem hid' hid (hu.upper r hru) (ht.upper r hr) (hu'.sound.upper r hru)
      (ht'.sound.upper r hr)

end Lessened

/-! ### Quantities with their springs -/

/-- Quantities and captives that are not `P` went with their springs, and nothing else did. -/
structure Shed (P : Id → Prop) (w t : Sketch K) : Prop extends Shrunk w t, Lessened P w t where
  struck : Scene.Struck w.toScene t.toScene
  /-- A spring that was owned is listed as long as its owner is there to own it. -/
  listed : ∀ s, s ∈ t.graph.listed ↔ s ∈ w.graph.listed ∧
    ∀ r i, w.Owns r i → (w.spring s).id = some i → t.Owns r i

namespace Shed

theorem refl (h : w.Sound) : Shed P w w where
  toShrunk := .refl h
  toLessened := .withScene w w.toScene
  struck := .refl _
  listed s := by simp +contextual

theorem trans (h : Shed P w t) (h' : Shed P t u) : Shed P w u where
  toShrunk := h.toShrunk.trans h'.toShrunk
  toLessened := h.toLessened.trans h'.toLessened
  struck := h.struck.trans h'.struck
  listed s := by
    have hspring : t.spring s = w.spring s := h.struck.spring s
    rw [h'.listed, h.listed, hspring, and_assoc]
    refine and_congr_right fun _ => ⟨fun hs r i hi hid => ?_, fun hs => ⟨fun r i hi hid => ?_,
      fun r i hi hid => ?_⟩⟩
    · exact hs.2 r i (hs.1 r i hi hid) hid
    · exact h'.owns r i (hs r i hi hid)
    · exact hs r i (h.owns r i hi) hid

theorem mono (h : Shed P w t) (hP : ∀ i, P' i → P i) : Shed P' w t :=
  { h with toLessened := h.toLessened.mono hP }

/-- What is still owned is listed if it was. -/
theorem named (h : Shed P w t) (hw : w.Sound) (hi : t.Owns r i) :
    t.springRef? (some i) = w.springRef? (some i) := by
  refine Option.ext fun s => ?_
  have hspring : t.spring s = w.spring s := h.struck.spring s
  rw [h.sound.scene.springRef?_iff, hw.scene.springRef?_iff, h.listed, and_assoc]
  refine and_congr_right fun _ => ?_
  show _ ∧ (t.spring s).id = some i ↔ _
  rw [hspring]
  refine ⟨And.right, fun hid => ⟨fun r' i' hi' hid' => ?_, hid⟩⟩
  cases hid.symm.trans hid'
  rw [hw.owner_unique r' r i hi' (h.owns r i hi)]
  exact hi

end Shed

/-- Springs go with their owners: what is gone from the list are springs that lost them. -/
theorem mem_listed_freed (h : w.Sound) {v : Scene K} {ids : List Id}
    (hv : Scene.Freed w.toScene v ids) (hids : ∀ i ∈ ids, ∃ r, w.Owns r i)
    (howns : ∀ r i, t.Owns r i ↔ w.Owns r i ∧ i ∉ ids) (s : Ref) :
    s ∈ v.graph.listed ↔ s ∈ w.graph.listed ∧
      ∀ r i, w.Owns r i → (w.spring s).id = some i → t.Owns r i := by
  rw [hv.mem_listed h.scene]
  refine and_congr_right fun _ => ⟨fun hs r i hi hid => ?_, fun hs hmem => ?_⟩
  · refine (howns r i).2 ⟨hi, fun hmem => hs ?_⟩
    rw [hid]
    exact List.mem_map.2 ⟨i, hmem, rfl⟩
  · obtain ⟨i, hi, hid⟩ := List.mem_map.1 hmem
    obtain ⟨r, hr⟩ := hids i hi
    exact ((howns r i).1 (hs r i hr hid.symm)).2 hi

/-! ### A captive goes -/

theorem owns_springHolding {s : Id} (h : w.Sound) (hr : r ∈ w.declared)
    (hs : (w.quantity r).springHolding? (some c) = some s) : w.Owns r s := by
  obtain ⟨d, -, hmem⟩ := Quantity.springHolding?_eq_some hs
  have hp := h.proper r hr
  refine ⟨hr, ?_⟩
  rw [((Quantity.proper_rail (hp.rail_of_mem hmem)).1 hp).1]
  exact List.mem_map.2 ⟨_, hmem, rfl⟩

/-- Nobody owns the spring of a captive that was let go. -/
theorem owns_release {s : Id} (h : w.Sound) (hr : r ∈ w.declared)
    (hs : (w.quantity r).springHolding? (some c) = some s) (r' : Ref) (i : Id) :
    (w.changeQuantity r (·.release (some c) s)).Owns r' i ↔ w.Owns r' i ∧ i ≠ s := by
  have hself : (w.changeQuantity r (·.release (some c) s)).quantity r =
      (w.quantity r).release (some c) s := quantity_changeQuantity_self _ (h.declared_lt r hr)
  have herase : i ∈ ((w.quantity r).release (some c) s).springIds ↔
      i ≠ s ∧ i ∈ (w.quantity r).springIds := (h.springIds_nodup r hr).mem_erase_iff
  by_cases he : r' = r
  · subst he
    show _ ∧ i ∈ Quantity.springIds (Sketch.quantity _ r') ↔ _
    rw [hself, herase]
    exact ⟨fun ⟨hd, hne, hi⟩ => ⟨⟨hd, hi⟩, hne⟩, fun ⟨⟨hd, hi⟩, hne⟩ => ⟨hd, hne, hi⟩⟩
  · have hother : (w.changeQuantity r (·.release (some c) s)).quantity r' = w.quantity r' :=
      quantity_changeQuantity_ne _ he
    show _ ∧ i ∈ Quantity.springIds (Sketch.quantity _ r') ↔ _
    rw [hother]
    refine (and_iff_left_of_imp fun hi e => he ?_).symm
    exact h.owner_unique r' r i hi (e ▸ owns_springHolding h hr hs)

/-- A captive that is not `P` is let go. -/
theorem shed_release {s : Id} {v : Scene K} (h : w.Sound) (hr : r ∈ w.declared)
    (hs : (w.quantity r).springHolding? (some c) = some s) (hc : ¬ P c)
    (hv : Scene.Freed w.toScene v [s]) :
    Shed P w ((w.changeQuantity r (·.release (some c) s)).withScene v) := by
  have hrel := shrunk_release h hr hs
  have hself : (w.changeQuantity r (·.release (some c) s)).quantity r =
      (w.quantity r).release (some c) s := quantity_changeQuantity_self _ (h.declared_lt r hr)
  have key : ∀ r', ∃ captives springIds,
      ((w.changeQuantity r (·.release (some c) s)).withScene v).quantity r' =
          { w.quantity r' with captives := captives, springIds := springIds } ∧
        captives.Sublist (w.quantity r').captives ∧
        ∀ d ∈ (w.quantity r').captives, P d.1 → d ∈ captives := by
    intro r'
    by_cases he : r' = r
    · subst he
      refine ⟨_, _, hself, List.filter_sublist, fun d hd hP => List.mem_filter.2 ⟨hd, ?_⟩⟩
      rw [bne_iff_ne]
      intro e
      exact hc (Option.some.inj e ▸ hP)
    · exact ⟨_, _, quantity_changeQuantity_ne _ he, .refl _, fun d hd _ => hd⟩
  have hless : Lessened P w ((w.changeQuantity r (·.release (some c) s)).withScene v) := by
    refine ⟨rfl, .refl _, fun _ hr' hr'' => absurd hr' hr'', ?_, ?_, ?_, ?_⟩
    · intro r' _
      obtain ⟨cs, is, e, -⟩ := key r'
      exact ⟨cs, is, _, _, e⟩
    · intro r' _
      obtain ⟨cs, is, e, hcs⟩ := key r'
      rw [e]
      exact hcs
    · intro r' _
      obtain ⟨cs, is, e, -⟩ := key r'
      exact .inl (by rw [e])
    · intro r' _
      obtain ⟨cs, is, e, -⟩ := key r'
      exact .inl (by rw [e])
  refine ⟨hrel.trans (shrunk_withScene hrel.sound hv.onward hv.struck.spared), hless, hv.struck, ?_⟩
  refine mem_listed_freed h hv (fun i hi => ?_) fun r' i => ?_
  · rw [List.mem_singleton.1 hi]
    exact ⟨r, owns_springHolding h hr hs⟩
  · rw [List.mem_singleton]
    exact owns_release h hr hs r' i

/-! ### A quantity goes -/

/-- A quantity goes that has a node that is not `P`. -/
theorem shed_retire {v : Scene K} (h : w.Sound) (hr : r ∈ w.declared)
    (hP : ¬ ∀ i ∈ (w.quantity r).nodeIds, P i)
    (hv : Scene.Freed w.toScene v (w.quantity r).springIds) :
    Shed P w ((w.withScene v).retire r (some (w.quantity r).id)) := by
  have hwv := shrunk_withScene h hv.onward hv.struck.spared
  have hk : (w.withScene v).quantityRef? (some (w.quantity r).id) = some r :=
    h.quantityRef?_id hr
  have hret := shrunk_retire hwv.sound hk
  let t := (w.withScene v).retire r (some (w.quantity r).id)
  have hmem : ∀ s, s ∈ t.declared ↔ s ∈ w.declared ∧ s ≠ r := fun s =>
    (quantity_retire hwv.sound hk s).1
  have hget : ∀ s ∈ t.declared,
      t.quantity s = (w.quantity s).openReference (some (w.quantity r).id) := fun s =>
    (quantity_retire hwv.sound hk s).2.1
  have hrt : r ∉ t.declared := fun hr' => ((hmem r).1 hr').2 rfl
  have hless : Lessened P w t := by
    refine ⟨rfl, List.filter_sublist, ?_, ?_, ?_, ?_, ?_⟩
    · intro s hs hst
      by_cases he : s = r
      · rw [he]
        exact hP
      · exact absurd ((hmem s).2 ⟨hs, he⟩) hst
    · exact fun s hs => ⟨_, _, _, _, hget s hs⟩
    · intro s hs
      rw [hget s hs]
      exact ⟨.refl _, fun d hd _ => hd⟩
    · intro s hs
      rw [hget s hs]
      exact keepBound_opened hr hrt _
    · intro s hs
      rw [hget s hs]
      exact keepBound_opened hr hrt _
  refine ⟨hwv.trans hret, hless, hv.struck, ?_⟩
  refine mem_listed_freed h hv (fun i hi => ⟨r, hr, hi⟩) fun s i => ⟨fun hi => ?_, fun hi => ?_⟩
  · have hs := (hmem s).1 hi.1
    have hiw : w.Owns s i := hret.owns s i hi
    exact ⟨hiw, fun hi' => hs.2 (h.owner_unique s r i hiw ⟨hr, hi'⟩)⟩
  · obtain ⟨⟨hs, hi⟩, hi'⟩ := hi
    have hst : s ∈ t.declared := (hmem s).2 ⟨hs, fun e => hi' (e ▸ hi)⟩
    refine ⟨hst, ?_⟩
    show i ∈ (t.quantity s).springIds
    rw [hget s hst]
    exact hi

end Linkage.Sketch
