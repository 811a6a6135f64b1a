import Linkage.Proofs.Lasting
import Linkage.Proofs.Removal

/-!
# Which operation strikes a spring out

A listed spring that no quantity owns and that is not expired leaves the list in two ways: it is
deleted by its id, or a node that it is at is deleted, with or without the quantities over it
(`Op.Strikes`). Everything else leaves it there (`Op.mem_listed_step`).
-/

namespace Linkage.Scene

open Act

variable {K : Type} [Scalar K] {w t : Scene K} {s : Ref}

theorem enterNew_mem (hs : s ∈ w.graph.listed) (c : SpringSpec K) :
    (enterNew c).wp (fun _ t => s ∈ t.graph.listed) w := by
  refine (enterNew_spec w c).mono fun o t ht => ?_
  cases o with
  | error e =>
    rw [show t = w from ht]
    exact hs
  | ok r =>
    obtain ⟨rfl, _, -, -, rfl⟩ := ht
    exact mem_listed_enlist.2 (.inl hs)

theorem deleteSpring_mem (h : w.Sound) (hs : s ∈ w.graph.listed) (k : Key) :
    (deleteSpring k).wp (fun _ t => s ∈ t.graph.listed ↔ (w.spring s).id ≠ k) w := by
  refine (deleteSpring_spec h k).mono fun o t => ?_
  rintro ⟨-, ⟨hnone, rfl⟩ | ⟨i, r, rfl, hr, rfl⟩⟩
  · exact iff_of_true hs (springRef?_eq_none_iff.1 hnone s hs)
  · simp [delist, hs]

/-- A frame sweeps nothing but what is expired. -/
theorem advance_mem (h : w.Sound) (hs : s ∈ w.graph.listed) (hx : (w.spring s).expired = false)
    (dt : K) : (advance dt).wp (fun _ t => s ∈ t.graph.listed) w := by
  refine advance_keep (I := Strained w) (R := fun _ => True) dt (.refl w)
    (fun t ht => ht.alike.listed ▸ hs) ?relaxes ?steps ?sweeps
  case relaxes => exact (relax_strained w _).mono fun _ t ht => ⟨ht, fun _ => trivial⟩
  case steps =>
    intro dh t ht _
    exact (substep_strained t _ dh).mono fun _ t' ht' => ⟨ht.trans ht', fun _ => trivial⟩
  case sweeps =>
    intro t ht _
    refine (sweep_spec (h.alike ht.alike)).mono fun _ t' => ?_
    rintro ⟨-, -, -, hl⟩
    rw [hl, List.mem_filter, ht.alike.listed, ht.spring s]
    simp [hs, hx]

namespace Op

/-- The spring is deleted by its id or with a node that it is at. -/
def Strikes : Op K → Scene K → Ref → Prop
  | deleteSpring k, w, s => (w.spring s).id = k
  | deleteNode k, w, s => (w.spring s).contains k
  | _, _, _ => False

theorem mem_listed_step (h : w.Sound) (o : Op K) (hs : s ∈ w.graph.listed)
    (hx : (w.spring s).expired = false) :
    s ∈ (o.step w).graph.listed ↔ ¬ o.Strikes w s := by
  have stays : ∀ {x : Act K (Scene K) Unit} {p : Prop}, ¬ p →
      x.wp (fun _ t => s ∈ t.graph.listed) w → (s ∈ (x w).state.graph.listed ↔ ¬ p) :=
    fun hp hx => iff_of_true hx hp
  cases o with
  | deleteSpring k => exact deleteSpring_mem h hs k
  | deleteNode k =>
    obtain ⟨-, hk⟩ := deleteNode_spec h k
    show s ∈ ((Scene.deleteNode k) w).state.graph.listed ↔ ¬ (w.spring s).contains k = true
    rw [hk.listed]
    simp [hs]
  | addNode spot => exact stays id (wp_discard (addNode_keep hs (fun _ => hs) spot))
  | putNode k spot => exact stays id (putNode_keep hs (fun _ _ => hs) k spot)
  | connect k l => exact stays id (wp_discard (connect_keep hs (fun _ _ _ _ => hs) k l))
  | disconnect k l => exact stays id hs
  | makeSpring c =>
    refine stays id ?_
    unfold act
    exact wp_bind_check (I := fun t : Scene K => s ∈ t.graph.listed) rfl hs fun _ => hs
  | enterSpring r =>
    refine stays id ((enterSpring_spec h r).mono fun _ t => ?_)
    rintro (rfl | ⟨-, -, rfl⟩)
    · exact hs
    · exact mem_listed_enlist.2 (.inl hs)
  | pin k spot => exact stays id (wp_discard (pin_keep hs (fun c _ => enterNew_mem hs c) k spot))
  | tie a b lower upper =>
    exact stays id (wp_discard (tie_keep (fun c _ => enterNew_mem hs c) a b lower upper))
  | follow k spot => exact stays id (wp_discard (follow_keep (fun c _ => enterNew_mem hs c) k spot))
  | movePoint r spot =>
    exact stays id ((movePoint_alike w r spot).mono fun _ t ht => ht.listed ▸ hs)
  | boundSpring r lower upper => exact stays id hs
  | expire r => exact stays id hs
  | advance dt => exact stays id (advance_mem h hs hx dt)
  | elsewhere r s' =>
    refine stays id ?_
    unfold act
    rw [wp_bind, wp_read, next_ok, wp_ite]
    split <;> exact hs

end Op

end Linkage.Scene

namespace Linkage.Sketch

open Act

variable {K : Type} [Scalar K] {w t : Sketch K} {s : Ref} {P : Id → Prop}

/-- No quantity owns the id of the spring. -/
def Unowned (w : Sketch K) (s : Ref) : Prop := ∀ r i, w.Owns r i → (w.spring s).id ≠ some i

/-- Quantities own distances and rails. -/
theorem Sound.unowned (h : w.Sound) (hs : s ∈ w.graph.listed)
    (hd : (w.spring s).kind ≠ .distance) (hr : (w.spring s).kind ≠ .rail) : w.Unowned s := by
  intro r i hi hid
  have hmade := h.made r i hi s (h.scene.springRef?_iff.2 ⟨hs, hid⟩)
  unfold Quantity.Made at hmade
  split at hmade
  · exact hd hmade.1
  · exact hd hmade.1
  · exact hr hmade.1
  · exact hmade
  · exact hmade

theorem Grown.mem_listed (hg : Grown w t) (h : w.Sound) (hs : s ∈ w.graph.listed) :
    s ∈ t.graph.listed := by
  have hname : w.springRef? (w.spring s).id = some s := h.scene.springRef?_iff.2 ⟨hs, rfl⟩
  exact (Scene.of_springRef?_eq_some (hg.kept _ _ hname)).1

theorem Shed.mem_listed (ht : Shed P w t) (hs : s ∈ w.graph.listed) (hu : w.Unowned s) :
    s ∈ t.graph.listed :=
  (ht.listed s).2 ⟨hs, fun r i hi hid => absurd hid (hu r i hi)⟩

theorem mem_listed_freed_of_unowned (h : w.Sound) (hs : s ∈ w.graph.listed) (hu : w.Unowned s)
    {v : Scene K} {ids : List Id} (hv : Scene.Freed w.toScene v ids)
    (hids : ∀ i ∈ ids, ∃ r, w.Owns r i) : s ∈ v.graph.listed := by
  refine (hv.mem_listed h.scene).2 ⟨hs, fun hmem => ?_⟩
  obtain ⟨i, hi, hid⟩ := List.mem_map.1 hmem
  obtain ⟨r, hr⟩ := hids i hi
  exact hu r i hr hid.symm

theorem release_mem (h : w.Sound) (hs : s ∈ w.graph.listed) (hu : w.Unowned s)
    (rail node : Key) : (release rail node).wp (fun _ t => s ∈ t.graph.listed) w := by
  cases hr : w.quantityRef? rail with
  | none =>
    unfold release
    refine wp_bind_needQuantity (I := fun t => s ∈ t.graph.listed) hs fun r hr' => ?_
    cases hr.symm.trans hr'
  | some r =>
    cases hh : (w.quantity r).springHolding? node with
    | none =>
      refine (release_absent hr hh).mono fun o t => ?_
      rintro ⟨-, rfl⟩
      exact hs
    | some i =>
      refine (release_spec h hr hh).mono fun o t => ?_
      rintro ⟨-, v, hv, rfl⟩
      refine mem_listed_freed_of_unowned h hs hu hv fun j hj => ?_
      obtain ⟨c, rfl, -⟩ := Quantity.springHolding?_eq_some hh
      rw [List.mem_singleton.1 hj]
      exact ⟨r, owns_springHolding h (of_quantityRef?_eq_some hr).1 hh⟩

theorem withdraw_mem (h : w.Sound) (hs : s ∈ w.graph.listed) (hu : w.Unowned s) (k : Key) :
    (withdraw k).wp (fun _ t => s ∈ t.graph.listed) w := by
  cases hr : w.quantityRef? k with
  | none =>
    unfold withdraw
    rw [wp_bind, wp_report, next_ok, wp_bind, wp_read, next_ok, hr]
    exact hs
  | some r =>
    refine (withdraw_spec h hr).mono fun o t => ?_
    rintro ⟨-, v, hv, rfl⟩
    exact mem_listed_freed_of_unowned h hs hu hv fun i hi =>
      ⟨r, (of_quantityRef?_eq_some hr).1, hi⟩

theorem prune_mem (h : w.Sound) (hs : s ∈ w.graph.listed) (hu : w.Unowned s) :
    prune.wp (fun _ t => s ∈ t.graph.listed) w :=
  (prune_spec h).mono fun _ _ ht => ht.2.1.mem_listed hs hu

theorem readingOf_mem (h : w.Sound) (hs : s ∈ w.graph.listed) (hu : w.Unowned s) (k : Key) :
    (readingOf k).wp (fun _ t => s ∈ t.graph.listed) w := by
  unfold readingOf
  refine wp_bind_keep (prune_mem h hs hu) fun _ t ht => ?_
  exact wp_bind_needQuantity (I := fun t => s ∈ t.graph.listed) ht fun r _ => ht

theorem valueNow_mem (h : w.Sound) (hs : s ∈ w.graph.listed) (hu : w.Unowned s)
    (b : Option (Limit K)) : (valueNow b).wp (fun _ t => s ∈ t.graph.listed) w := by
  unfold valueNow
  refine wp_bind_keep (prune_mem h hs hu) fun _ t ht => (valueOf_spec t b).mono fun o t' e => ?_
  rw [e]
  exact ht

theorem withdrawNode_mem (h : w.Sound) (hs : s ∈ w.graph.listed) (hu : w.Unowned s) (k : Key) :
    (withdrawNode k).wp (fun _ t => s ∈ t.graph.listed ↔ ¬ (w.spring s).contains k) w := by
  refine (withdrawNode_withdrawn h k).mono fun o t => ?_
  rintro ⟨-, ht⟩
  have hover : s ∈ w.springsOver k ↔ (w.spring s).contains k := by
    rw [mem_springsOver, and_iff_right hs, or_iff_left]
    rintro ⟨r, -, i, hi, hid⟩
    exact hu r i hi hid
  rw [ht.listed, List.mem_filter, and_iff_right hs, decide_eq_true_iff, hover]

theorem refresh_mem (h : w.Sound) (hs : s ∈ w.graph.listed) (hu : w.Unowned s)
    (hx : (w.spring s).expired = false) (dt : Option K) :
    (refresh dt).wp (fun _ t => s ∈ t.graph.listed) w := by
  unfold refresh
  rw [wp_bind]
  refine (prune_spec h).mono fun o u => ?_
  rintro ⟨rfl, hu', htidy⟩
  have hsu : s ∈ u.graph.listed := hu'.mem_listed hs hu
  have hspring : u.spring s = w.spring s := hu'.struck.spring s
  rw [next_ok, wp_bind, wp_read, next_ok, wp_bind]
  refine (forEach_refreshOne hu'.sound htidy).mono fun o t => ?_
  rintro ⟨rfl, v, hv, rfl⟩
  have hsv : s ∈ v.graph.listed := hv.graph ▸ hsu
  rw [next_ok]
  cases dt with
  | none => exact hsv
  | some dt =>
    show (Scene.advance dt).onScene.wp _ (u.withScene v)
    rw [wp_onScene]
    have hsame : v.spring s = w.spring s := by
      refine (hv.rest s fun i hi hname => ?_).trans hspring
      obtain ⟨r, hr, hi⟩ := mem_ownedIds.1 hi
      have hid : (u.spring s).id = some i := (Scene.of_springRef?_eq_some hname).2
      exact hu r i (hu'.owns r i ⟨hr, hi⟩) (hspring ▸ hid)
    exact Scene.advance_mem (w := v) (hu'.sound.scene.alike hv.alike) hsv (hsame ▸ hx) dt

namespace Op

def Strikes : Op K → Sketch K → Ref → Prop
  | scene o, w, s => o.Strikes w.toScene s
  | withdrawNode k, w, s => (w.spring s).contains k
  | _, _, _ => False

theorem mem_listed_step (h : w.Sound) (o : Op K) (hs : s ∈ w.graph.listed) (hu : w.Unowned s)
    (hx : (w.spring s).expired = false) :
    s ∈ (o.step w).graph.listed ↔ ¬ o.Strikes w s := by
  have stays : ∀ {x : Act K (Sketch K) Unit} {p : Prop}, ¬ p →
      x.wp (fun _ t => s ∈ t.graph.listed) w → (s ∈ (x w).state.graph.listed ↔ ¬ p) :=
    fun hp hx => iff_of_true hx hp
  have grown : ∀ {x : Act K (Sketch K) Unit} {p : Prop}, ¬ p → x.wp (fun _ t => Grown w t) w →
      (s ∈ (x w).state.graph.listed ↔ ¬ p) := fun hp hx => stays hp
    (hx.mono fun _ _ ht => ht.mem_listed h hs)
  cases o with
  | scene o => exact o.mem_listed_step h.scene hs hx
  | withdrawNode k => exact withdrawNode_mem h hs hu k
  | declareDistance a b lower upper =>
    exact grown id (wp_bind_keep (declareDistance_grown h a b lower upper) fun _ _ ht => ht)
  | declareAngle a b pivot lower upper =>
    exact grown id (wp_bind_keep (declareAngle_grown h a b pivot lower upper) fun _ _ ht => ht)
  | declareRail a b captives =>
    exact grown id (wp_bind_keep (declareRail_grown h a b captives) fun _ _ ht => ht)
  | hold rail node => exact grown id (hold_grown h rail node)
  | setLower k arg => exact grown id (setLower_grown h k arg)
  | setUpper k arg => exact grown id (setUpper_grown h k arg)
  | makeQuantity q => exact stays id hs
  | release rail node => exact stays id (release_mem h hs hu rail node)
  | withdraw k => exact stays id (withdraw_mem h hs hu k)
  | readingOf k =>
    exact stays id (wp_bind_keep (I := fun t : Sketch K => s ∈ t.graph.listed)
      (readingOf_mem h hs hu k) fun _ _ ht => ht)
  | valueNow b =>
    exact stays id (wp_bind_keep (I := fun t : Sketch K => s ∈ t.graph.listed)
      (valueNow_mem h hs hu b) fun _ _ ht => ht)
  | refresh dt => exact stays id (refresh_mem h hs hu hx dt)

end Op

end Linkage.Sketch
