import Linkage.Proofs.Scene.Bounds

/-!
# Runs of a scene

A run is a list of operations, each of which may fail and then leaves behind what it did before. A
spring object may come from anywhere and may be listed, struck out and listed again; while it is not
listed its life elsewhere may change it (`Scene.Op.elsewhere`).

`after_onward` carries soundness through every run, `givenOut_pairwise` shows that ids are given out
in ascending order.
-/

namespace Linkage.Scene

open Act

variable {K : Type} [Scalar K] {w t : Scene K}

inductive Op (K : Type) where
  | addNode (spot : Coords K)
  | deleteNode (k : Key)
  | putNode (k : Key) (spot : Coords K)
  | connect (k l : Key)
  | disconnect (k l : Key)
  | makeSpring (c : SpringSpec K)
  | enterSpring (r : Ref)
  | pin (k : Key) (spot : Option (Coords K))
  | tie (a b : Key) (lower upper : Option (Number K))
  | follow (k : Key) (spot : Option (Coords K))
  | deleteSpring (k : Key)
  | movePoint (r : Ref) (spot : Coords K)
  | boundSpring (r : Ref) (lower upper : Option (Number K))
  | expire (r : Ref)
  | advance (dt : K)
  /-- What else is done with a spring while it is not listed. -/
  | elsewhere (r : Ref) (s : Spring K)

namespace Op

def act : Op K → Act K (Scene K) Unit
  | addNode spot => do let _ ← Scene.addNode spot
  | deleteNode k => Scene.deleteNode k
  | putNode k spot => Scene.putNode k spot
  | connect k l => do let _ ← Scene.connect k l
  | disconnect k l => Scene.disconnect k l
  | makeSpring c => do
    let s ← ofExcept c.build
    change (·.makeSpring s)
  | enterSpring r => Scene.enterSpring r
  | pin k spot => do let _ ← Scene.pin k spot
  | tie a b lower upper => do let _ ← Scene.tie a b lower upper
  | follow k spot => do let _ ← Scene.follow k spot
  | deleteSpring k => Scene.deleteSpring k
  | movePoint r spot => Scene.movePoint r spot
  | boundSpring r lower upper => Scene.boundSpring r lower upper
  | expire r => Scene.expire r
  | advance dt => Scene.advance dt
  | elsewhere r s => do
    let w ← read
    if r ∈ w.graph.listed then pure () else change (·.setSpring r s)

/-- The scene that is left when the operation has ended, be it by a failure. -/
def step (o : Op K) (w : Scene K) : Scene K := (o.act w).state

end Op

def after (ops : List (Op K)) (w : Scene K) : Scene K := ops.foldl (fun w o => o.step w) w

/-! ### Soundness -/

omit [Scalar K] in
theorem wp_discard {α : Type} {x : Act K (Scene K) α} {I : Scene K → Prop}
    (h : x.wp (fun _ t => I t) w) :
    (do let _ ← x : Act K (Scene K) Unit).wp (fun _ t => I t) w :=
  wp_bind_keep h fun _ _ ht => ht

theorem Op.step_onward (h : w.Sound) (o : Op K) : Onward w (o.step w) := by
  show o.act.wp (fun _ t => Onward w t) w
  have alike : ∀ {x : Act K (Scene K) Unit}, x.wp (fun _ t => Alike w t) w →
      x.wp (fun _ t => Onward w t) w := fun hx => hx.mono fun _ _ => (Onward.refl h).alike
  cases o with
  | addNode spot => exact wp_discard (addNode_onward h spot)
  | deleteNode k => exact deleteNode_onward h k
  | putNode k spot => exact putNode_onward h k spot
  | connect k l => exact wp_discard (connect_onward h k l)
  | disconnect k l => exact disconnect_onward h k l
  | makeSpring c =>
    unfold act
    exact wp_bind_check (I := Onward w) rfl (Onward.refl h) fun s =>
      (Onward.refl h).alike (alike_makeSpring h s)
  | enterSpring r => exact enterSpring_onward h r
  | pin k spot => exact wp_discard (pin_onward h k spot)
  | tie a b lower upper => exact wp_discard (tie_onward h a b lower upper)
  | follow k spot => exact wp_discard (follow_onward h k spot)
  | deleteSpring k => exact (deleteSpring_onward h k).mono fun _ _ ht => ht.2.1
  | movePoint r spot => exact alike (movePoint_alike w r spot)
  | boundSpring r lower upper => exact alike (boundSpring_alike w r lower upper)
  | expire r => exact alike (expire_alike w r)
  | advance dt => exact (advance_spec h dt).mono fun _ _ ht => ht.1
  | elsewhere r s =>
    unfold act
    rw [wp_bind, wp_read, next_ok, wp_ite]
    split
    · exact .refl h
    · next hr => exact (Onward.refl h).alike (alike_setSpring_of_notMem hr)

/-- Nothing but an operation that sets them sets the bounds of a rail's spring. -/
theorem Op.step_bounds {r : Ref} (h : w.Sound) (o : Op K) (hr : r ∈ w.graph.listed)
    (hk : (w.spring r).kind = .rail) (ho : ∀ lo hi, o ≠ .boundSpring r lo hi) :
    ((o.step w).spring r).lower = (w.spring r).lower ∧
      ((o.step w).spring r).upper = (w.spring r).upper := by
  have spared : ∀ {α : Type} {x : Act K (Scene K) α}, x.wp (fun _ t => Spared w t) w →
      ((x w).state.spring r).lower = (w.spring r).lower ∧
        ((x w).state.spring r).upper = (w.spring r).upper := fun hx => (hx r hk).2
  cases o with
  | addNode spot => exact spared (wp_discard (addNode_spared w spot))
  | deleteNode k => exact spared (deleteNode_spared h k)
  | putNode k spot => exact spared (putNode_spared w k spot)
  | connect k l => exact spared (wp_discard (connect_spared w k l))
  | disconnect k l => exact ⟨rfl, rfl⟩
  | makeSpring c =>
    unfold step act
    exact spared (wp_bind_check (I := Spared w) rfl (Spared.refl w) fun s => .makeSpring w s)
  | enterSpring r => exact spared (enterSpring_spared h r)
  | pin k spot => exact spared (wp_discard (pin_spared w k spot))
  | tie a b lower upper => exact spared (wp_discard (tie_spared w a b lower upper))
  | follow k spot => exact spared (wp_discard (follow_spared w k spot))
  | deleteSpring k =>
    exact spared ((deleteSpring_onward h k).mono fun _ _ ht => ht.2.2.spared)
  | movePoint r spot => exact spared (movePoint_spared w r spot)
  | boundSpring r' lower upper =>
    have hne : r ≠ r' := fun e => ho lower upper (e ▸ rfl)
    have hspring : (step (.boundSpring r' lower upper) w).spring r = w.spring r :=
      spring_setSpring_ne hne
    rw [hspring]
    exact ⟨rfl, rfl⟩
  | expire r => exact spared (expire_spared w r)
  | advance dt => exact spared (advance_spared h dt)
  | elsewhere r' s =>
    have hact : (act (.elsewhere r' s)).wp (fun _ t => t.spring r = w.spring r) w := by
      unfold act
      rw [wp_bind, wp_read, next_ok, wp_ite]
      split
      · exact rfl
      · next hr' => exact spring_setSpring_ne fun e => hr' (e ▸ hr)
    have hspring : (step (.elsewhere r' s) w).spring r = w.spring r := hact
    rw [hspring]
    exact ⟨rfl, rfl⟩

theorem after_onward (h : w.Sound) (ops : List (Op K)) : Onward w (after ops w) := by
  induction ops generalizing w with
  | nil => exact .refl h
  | cons o ops ih =>
    have ho := o.step_onward h
    exact ho.trans (ih ho.sound)

/-! ### Ids -/

def nodeIds (w : Scene K) : List Id := w.graph.nodes.map Node.id

def springIds (w : Scene K) : List Id := w.members.filterMap Spring.id

/-- The ids that come up in a run, in the order that they come up: those that are carried after an
operation and were not carried before it. -/
def givenOut (ids : Scene K → List Id) : List (Op K) → Scene K → List Id
  | [], _ => []
  | o :: ops, w => (ids (o.step w)).filter (· ∉ ids w) ++ givenOut ids ops (o.step w)

/-- Ids that ascend below a counter, and are not given out anew below it. -/
structure Numbering (ids : Scene K → List Id) (counter : Scene K → Id) : Prop where
  ascend : ∀ w, w.Sound → (ids w).Pairwise (· < ·)
  lt : ∀ w, w.Sound → ∀ i ∈ ids w, i < counter w
  le : ∀ w t, Later w t → counter w ≤ counter t
  old : ∀ w t, Later w t → ∀ i ∈ ids t, i < counter w → i ∈ ids w

theorem numbering_nodes : Numbering (K := K) nodeIds fun w => w.graph.nextNode where
  ascend w h := List.pairwise_map.2 h.nodes_ascend
  lt w h i hi := by
    obtain ⟨n, hn, rfl⟩ := List.mem_map.1 hi
    exact h.node_lt n hn
  le w t h := h.nextNode_le
  old w t h i hi hlt := by
    obtain ⟨n, hn, rfl⟩ := List.mem_map.1 hi
    exact List.mem_map.2 (h.node n hn hlt)

theorem mem_springIds {i : Id} :
    i ∈ w.springIds ↔ ∃ r ∈ w.graph.listed, (w.spring r).id = some i := by
  simp [springIds, members]

theorem numbering_springs : Numbering (K := K) springIds fun w => w.graph.nextSpring where
  ascend w h := List.pairwise_filterMap.2 (List.pairwise_map.2 (h.springs_ascend.imp
    fun hlt i hi j hj => hlt i j hi hj))
  lt w h i hi := by
    obtain ⟨r, hr, hid⟩ := mem_springIds.1 hi
    obtain ⟨j, hj, hlt⟩ := h.spring_lt r hr
    exact Option.some.inj (hj.symm.trans hid) ▸ hlt
  le w t h := h.nextSpring_le
  old w t h i hi hlt := by
    obtain ⟨r, hr, hid⟩ := mem_springIds.1 hi
    obtain ⟨hr', hid', -⟩ := h.spring r hr i hid hlt
    exact mem_springIds.2 ⟨r, hr', hid'⟩

variable {ids : Scene K → List Id} {counter : Scene K → Id}

theorem le_of_mem_givenOut (hn : Numbering ids counter) (h : w.Sound) (ops : List (Op K)) :
    ∀ i ∈ givenOut ids ops w, counter w ≤ i := by
  induction ops generalizing w with
  | nil => simp [givenOut]
  | cons o ops ih =>
    have ho := o.step_onward h
    intro i hi
    rcases List.mem_append.1 hi with hi | hi
    · obtain ⟨hi, hnew⟩ := List.mem_filter.1 hi
      exact Int.not_lt.1 fun hlt => of_decide_eq_true hnew (hn.old _ _ ho.later i hi hlt)
    · exact Int.le_trans (hn.le _ _ ho.later) (ih ho.sound i hi)

/-- No id is given out a second time: later ones are greater. -/
theorem givenOut_pairwise (hn : Numbering ids counter) (h : w.Sound) (ops : List (Op K)) :
    (givenOut ids ops w).Pairwise (· < ·) := by
  induction ops generalizing w with
  | nil => exact List.Pairwise.nil
  | cons o ops ih =>
    have ho := o.step_onward h
    refine List.pairwise_append.2 ⟨(hn.ascend _ ho.sound).sublist List.filter_sublist, ih ho.sound,
      fun i hi j hj => ?_⟩
    exact Int.lt_of_lt_of_le (hn.lt _ ho.sound i (List.mem_filter.1 hi).1)
      (le_of_mem_givenOut hn ho.sound ops j hj)

/-- After every run that starts from an empty graph the lists fit together, no spring object is
listed twice, no node keeps an id twice, and no id was given out a second time. -/
theorem sound_after_run (c : Config K) (springs : Arena (Spring K)) (ops : List (Op K)) :
    let w : Scene K := { springs := springs, graph := { config := c } }
    (after ops w).Sound ∧ (after ops w).graph.listed.Nodup ∧
      (∀ n ∈ (after ops w).graph.nodes, n.springIds.Nodup) ∧
      (givenOut nodeIds ops w).Pairwise (· < ·) ∧ (givenOut springIds ops w).Pairwise (· < ·) := by
  intro w
  have h : w.Sound := sound_empty c springs
  have ht := (after_onward h ops).sound
  exact ⟨ht, ht.listed_nodup, fun n hn => ht.springIds_nodup hn,
    givenOut_pairwise numbering_nodes h ops, givenOut_pairwise numbering_springs h ops⟩

end Linkage.Scene
