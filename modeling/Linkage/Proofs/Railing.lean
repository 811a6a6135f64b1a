import Linkage.Proofs.Refusal

/-!
# Declaring a rail

All captives are looked at before anything is done, and then each of them is held by an operation
that could refuse it (`Sketch.hold`). That it never does is shown by induction over the captives: in
every round the sketch is the one that `Sketch.railed` says, for the captives so far, and in that
one the rail is declared between nodes that are there.

`Bench.railed_after_run` is the result: a call changes nothing or leaves the sketch that `railed`
says.
-/

namespace Linkage

namespace Arena

variable {α : Type} [Inhabited α] {a : Arena α} {v v' : α}

theorem set_alloc_fresh : (a.alloc v).set a.fresh v' = a.alloc v' := by
  have hlt : a.fresh < (a.alloc v).size := by
    rw [size_alloc]
    exact Nat.lt_succ_self _
  refine ext (by simp) fun r hr => ?_
  rw [size_set, size_alloc] at hr
  by_cases h : r = a.fresh
  · rw [h, get_set_self hlt, get_alloc_self]
  · have hr : r < a.size := Nat.lt_of_le_of_ne (Nat.le_of_lt_succ hr) h
    rw [get_set_ne h, get_alloc_of_lt hr, get_alloc_of_lt hr]

theorem modify_alloc_fresh (f : α → α) : (a.alloc v).modify a.fresh f = a.alloc (f v) := by
  unfold modify
  rw [get_alloc_self, set_alloc_fresh]

end Arena

namespace Sketch

open Act

variable {K : Type} [Scalar K] {w t : Sketch K} {a b n : Node K} {held : List (Node K)}
  {c : Option (Constants K)}

/-! ### What a rail adds -/

/-- The spring that holds a node on the rail from `a` to `b`: at the seat of the node. -/
def holder (w : Sketch K) (c : Option (Constants K)) (a b n : Node K) (i : Id) : Spring K :=
  let seat := Rail.seat n.position a.position b.position w.clamped
  { id := some i, kind := .rail, a := .point seat.1, b := some n.id, constants := c,
    lower := some (.real 0.0), upper := some (.real 0.0), temporary := false, expired := false,
    railDirection := b.position - a.position, atRailEnd := seat.2, strain := Strain.none }

/-- The rail from `a` to `b` under the next id. It holds each node by a spring of its own; they have
the next ids, in the order of the nodes. -/
def railOver (w : Sketch K) (a b : Node K) (held : List (Node K)) : Quantity K :=
  { id := w.nextQuantity, kind := .rail, a := a.id, b := b.id, lower := none, upper := none
    springIds := held.zipIdx.map fun c => w.graph.nextSpring + c.2
    captives := held.zipIdx.map fun c => (c.1.id, w.graph.nextSpring + c.2) }

/-- The sketch with one more rail, its springs and nothing else. -/
def railed (w : Sketch K) (c : Option (Constants K)) (a b : Node K) (held : List (Node K)) :
    Sketch K where
  springs := held.zipIdx.foldl
    (fun springs n => springs.alloc (w.holder c a b n.1 (w.graph.nextSpring + n.2))) w.springs
  graph :=
    { w.graph with
      nodes := w.graph.nodes.map fun m =>
        { m with springIds := m.springIds ++
            (held.zipIdx.filter fun n => n.1.id == m.id).map fun n => w.graph.nextSpring + n.2 }
      listed := w.graph.listed ++ held.zipIdx.map fun n => w.springs.size + n.2
      nextSpring := w.graph.nextSpring + held.length }
  quantities := w.quantities.alloc (w.railOver a b held)
  declared := w.declared ++ [w.quantities.fresh]
  nextQuantity := w.nextQuantity + 1

/-! ### The rail with one captive more -/

omit [Scalar K] in
theorem zipIdx_concat (held : List (Node K)) (n : Node K) :
    (held ++ [n]).zipIdx = held.zipIdx ++ [(n, held.length)] := by
  simp [List.zipIdx_append]

theorem springs_railed_concat : (w.railed c a b (held ++ [n])).springs =
    (w.railed c a b held).springs.alloc
      (w.holder c a b n (w.railed c a b held).graph.nextSpring) := by
  simp [railed, zipIdx_concat]

theorem size_railed : (w.railed c a b held).springs.size = w.springs.size + held.length := by
  induction held using List.reverseRecOn with
  | nil => rfl
  | append_singleton held n ih =>
    rw [springs_railed_concat, Arena.size_alloc, ih]
    simp [Nat.add_assoc]

theorem node?_railed (k : Key) : (w.railed c a b held).node? k =
    (w.node? k).map fun m => { m with springIds := m.springIds ++
      (held.zipIdx.filter fun n => n.1.id == m.id).map fun n => w.graph.nextSpring + n.2 } :=
  List.find?_map ..

theorem nodes_enlist {v : Scene K} (h : v.Sound) (r : Ref) :
    (v.enlist r).graph.nodes = v.graph.nodes.map fun n =>
      { n with springIds := n.springIds ++
          if (v.spring r).contains (some n.id) then [v.graph.nextSpring] else [] } := by
  refine List.map_congr_left fun n hn => ?_
  have hnew : v.graph.nextSpring ∉ n.springIds := fun hi => by
    obtain ⟨r', hr', hid⟩ := (h.mem_springIds hn).1 hi
    obtain ⟨j, hj, hlt⟩ := h.spring_lt r' (Scene.mem_touching.1 hr').1
    exact Int.lt_irrefl _ (Option.some.inj (hid.symm.trans hj) ▸ hlt)
  split
  · rw [Node.attach, if_neg hnew]
  · rw [List.append_nil]

/-- The spring as it is made, before it is listed and told whether it is at an end of the rail. -/
def unplaced (w : Sketch K) (c : Option (Constants K)) (a b n : Node K) : Spring K :=
  { w.holder c a b n 0 with id := none, atRailEnd := false }

theorem build_unplaced (w : Sketch K) (c : Option (Constants K)) (a b n : Node K) :
    (SpringSpec.rail c (some n.id)
      (some (.ofPoint (Rail.seat n.position a.position b.position w.clamped).1))
      (some (.ofPoint (b.position - a.position)))).build = .ok (w.unplaced c a b n) :=
  rfl

/-- The sketch with one captive more on the rail `r`, by a spring made for it. -/
def mount (t : Sketch K) (r : Ref) (s : Spring K) (n : Id) (atEnd : Bool) : Sketch K :=
  let v := (t.toScene.makeSpring s).enlist t.springs.fresh
  let v' := v.changeSpring t.springs.fresh fun s => { s with atRailEnd := atEnd }
  (t.withScene v').changeQuantity r (·.hold n t.graph.nextSpring)

theorem springs_mount (t : Sketch K) (r : Ref) (s : Spring K) (n : Id) (atEnd : Bool) :
    (t.mount r s n atEnd).springs =
      t.springs.alloc { s with id := some t.graph.nextSpring, atRailEnd := atEnd } := by
  show ((t.springs.alloc s).set t.springs.fresh
    { (t.springs.alloc s).get t.springs.fresh with id := some t.graph.nextSpring }).modify
      t.springs.fresh (fun s => { s with atRailEnd := atEnd }) = _
  rw [Arena.set_alloc_fresh, Arena.modify_alloc_fresh, Arena.get_alloc_self]

theorem nodes_mount (h : t.Sound) (r : Ref) {s : Spring K} (hs : s.endpoints = [some n.id])
    (atEnd : Bool) : (t.mount r s n.id atEnd).graph.nodes = t.graph.nodes.map fun m =>
      { m with springIds := m.springIds ++ if n.id = m.id then [t.graph.nextSpring] else [] } := by
  have hm : (t.toScene.makeSpring s).Sound := h.scene.alike (Scene.alike_makeSpring h.scene s)
  show ((t.toScene.makeSpring s).enlist t.springs.fresh).graph.nodes = _
  rw [nodes_enlist hm]
  refine List.map_congr_left fun m _ => ?_
  have hcontains : (((t.toScene.makeSpring s).spring t.springs.fresh).contains (some m.id)) =
      decide (n.id = m.id) := by
    rw [Scene.spring_makeSpring, Spring.contains, hs]
    simp [eq_comm]
  rw [hcontains]
  simp
  rfl

omit [Scalar K] in
theorem hold_railOver (hn : ∀ m ∈ held, m.id ≠ n.id) :
    (w.railOver a b held).hold n.id (w.graph.nextSpring + held.length) =
      w.railOver a b (held ++ [n]) := by
  have hcaptives := captives_hold (q := w.railOver a b held) (n := n.id)
    (i := w.graph.nextSpring + held.length) fun c hc => by
      obtain ⟨m, hm, rfl⟩ := List.mem_map.1 hc
      exact hn m.1 (List.fst_mem_of_mem_zipIdx hm)
  show { w.railOver a b held with
    springIds := ((w.railOver a b held).hold n.id (w.graph.nextSpring + held.length)).springIds
    captives := ((w.railOver a b held).hold n.id (w.graph.nextSpring + held.length)).captives } = _
  rw [hcaptives]
  simp [railOver, Quantity.hold, zipIdx_concat]

/-- One captive more is one spring more, which the rail writes down. -/
theorem mount_railed (h : (w.railed c a b held).Sound) (hn : ∀ m ∈ held, m.id ≠ n.id) :
    (w.railed c a b held).mount w.quantities.fresh (w.unplaced c a b n) n.id
      (Rail.seat n.position a.position b.position w.clamped).2 = w.railed c a b (held ++ [n]) := by
  let t := w.railed c a b held
  let u := w.railed c a b (held ++ [n])
  let t' := t.mount w.quantities.fresh (w.unplaced c a b n) n.id
    (Rail.seat n.position a.position b.position w.clamped).2
  have hnext : t.graph.nextSpring = w.graph.nextSpring + held.length := rfl
  have hsprings : t'.springs = u.springs := by
    rw [springs_mount, springs_railed_concat]
    rfl
  have hnodes : t'.graph.nodes = u.graph.nodes := by
    rw [nodes_mount h _ rfl]
    show (w.graph.nodes.map _).map _ = w.graph.nodes.map _
    rw [List.map_map]
    refine List.map_congr_left fun m _ => ?_
    simp only [Function.comp_apply, zipIdx_concat, List.filter_append, List.map_append,
      List.append_assoc]
    by_cases he : n.id = m.id <;> simp [he, t, hnext]
  have hlisted : t'.graph.listed = u.graph.listed := by
    show (w.graph.listed ++ _) ++ [t.springs.size] = w.graph.listed ++ _
    rw [size_railed, zipIdx_concat, List.map_append, List.append_assoc]
    rfl
  have hgraph : t'.graph = u.graph := by
    have hcount : t'.graph.nextSpring = u.graph.nextSpring := by
      show w.graph.nextSpring + held.length + 1 = w.graph.nextSpring + (held ++ [n]).length
      simp [Int.add_assoc]
    show { w.graph with nodes := t'.graph.nodes, listed := t'.graph.listed,
                        nextSpring := t'.graph.nextSpring } = _
    rw [hnodes, hlisted, hcount]
    rfl
  have hquantities : t'.quantities = u.quantities := by
    show (w.quantities.alloc (w.railOver a b held)).modify w.quantities.fresh
      (·.hold n.id t.graph.nextSpring) = w.quantities.alloc (w.railOver a b (held ++ [n]))
    rw [Arena.modify_alloc_fresh, hnext, hold_railOver hn]
  show Sketch.mk ⟨t'.springs, t'.graph⟩ t'.quantities u.declared u.nextQuantity = _
  rw [hsprings, hgraph, hquantities]

/-! ### Holding the captives -/

omit [Scalar K] in
theorem eraseDups_concat (ks : List Key) (k : Key) :
    (ks ++ [k]).eraseDups = ks.eraseDups ++ if k ∈ ks then [] else [k] := by
  rw [List.eraseDups_append]
  by_cases hk : k ∈ ks
  · simp [hk, List.removeAll]
  · simp [hk, List.removeAll, List.eraseDups_cons]

section

variable {rail k : Key} {r : Ref} (hr : t.quantityRef? rail = some r)
  (hk : (t.quantity r).kind = .rail) (hn : t.node? k = some n)
  (hover : (t.quantity r).isOver (some n.id) = false)

include hr hk hn hover

theorem hold_mount (ha : t.node? (some (t.quantity r).a) = some a)
    (hb : t.node? (some (t.quantity r).b) = some b)
    (hfree : (t.quantity r).springHolding? (some n.id) = none)
    (hc : t.graph.config.constants .rail = c) :
    (hold rail k).wp (fun o u => o = .ok () ∧ u = t.mount r (t.unplaced c a b n) n.id
      (Rail.seat n.position a.position b.position t.clamped).2) t := by
  subst hc
  have hnode : t.node? (some n.id) = some n := (Scene.of_node?_eq_some hn).2 ▸ hn
  have hends : ∀ k ∈ (t.unplaced (t.graph.config.constants .rail) a b n).endpoints, t.isNode k := by
    show ∀ k ∈ [some n.id], t.isNode k
    simpa using Scene.isNode_of_node? hnode
  have hbuild := build_unplaced t (t.graph.config.constants .rail) a b n
  unfold hold
  simp only [wp_bind, wp_needQuantity, hr, next_ok, wp_read, hk, ne_eq, not_true_eq_false,
    if_false, wp_needOwnNode, hn, hover, Bool.false_eq_true, hfree, Option.isSome_none, wp_ofExcept,
    railEnd, ha, hb, hnode, wp_onScene, Scene.wp_constants]
  refine (Scene.enterNew_ok hbuild hends).mono fun o v => ?_
  rintro ⟨rfl, rfl⟩
  exact ⟨rfl, rfl⟩

theorem hold_again (hheld : ((t.quantity r).springHolding? (some n.id)).isSome) :
    (hold rail k).wp (fun o u => o = .ok () ∧ u = t) t := by
  unfold hold
  simp only [wp_bind, wp_needQuantity, hr, next_ok, wp_read, hk, ne_eq, not_true_eq_false,
    if_false, wp_needOwnNode, hn, hover, Bool.false_eq_true, hheld, if_true, wp_pure, and_self]

end

omit [Scalar K] in
theorem springHolding?_railOver {i : Id} :
    ((w.railOver a b held).springHolding? (some i)).isSome ↔ ∃ m ∈ held, m.id = i := by
  have hmem : ∀ m, m ∈ held ↔ ∃ j, (m, j) ∈ held.zipIdx := fun m => by
    simp only [List.mk_mem_zipIdx_iff_getElem?]
    exact List.mem_iff_getElem?
  simp [Quantity.springHolding?, railOver, hmem]

omit [Scalar K] in
theorem isOver_railOver {i : Id} (ha : i ≠ a.id) (hb : i ≠ b.id) :
    (w.railOver a b held).isOver (some i) = false := by
  simp [railOver, Quantity.isOver, Quantity.nodeIds, Quantity.pivot?, ha.symm, hb.symm]

theorem quantity_railed :
    (w.railed c a b held).quantity w.quantities.fresh = w.railOver a b held :=
  Arena.get_alloc_self

theorem railed_nil :
    w.railed c a b [] = (w.passId.makeQuantity (w.railOver a b [])).declare w.quantities.fresh := by
  have hgraph : (w.railed c a b []).graph = w.graph := by
    have hnodes : (w.railed c a b []).graph.nodes = w.graph.nodes := by simp [railed]
    show { w.graph with nodes := (w.railed c a b []).graph.nodes, listed := w.graph.listed ++ [],
                        nextSpring := w.graph.nextSpring + 0 } = _
    rw [hnodes, List.append_nil, Int.add_zero]
  show Sketch.mk ⟨w.springs, (w.railed c a b []).graph⟩ _ _ _ = _
  rw [hgraph]
  rfl

theorem fits_railOver : Fits w.passId w.quantities.fresh (w.railOver a b []) := by
  constructor
  case proper =>
    exact (Quantity.proper_rail (q := w.railOver a b []) rfl).2
      ⟨rfl, List.nodup_nil, by simp [railOver]⟩
  case lower => exact fun i hi => by cases hi
  case upper => exact fun i hi => by cases hi
  all_goals simp [railOver]

theorem sound_railed_nil (h : w.Sound) : (w.railed c a b []).Sound := by
  rw [railed_nil]
  exact (onward_declare (q := w.railOver a b []) (grown_passId h).sound h.id_lt (Int.lt_succ _)
    fits_railOver rfl).sound

theorem isNode_railed (k : Key) : (w.railed c a b held).isNode k = w.isNode k := by
  rw [Scene.isNode, node?_railed, Option.isSome_map]
  rfl

/-- The rail is declared before it holds anything. -/
theorem enter_railOver (h : w.Sound) (ha : w.isNode (some a.id)) (hb : w.isNode (some b.id)) :
    (enter (w.railOver a b [])).wp
      (fun o t => o = .ok w.quantities.fresh ∧ t = w.railed c a b []) w.passId := by
  let t := w.railed c a b []
  have hself : t.quantity w.quantities.fresh = w.railOver a b [] := quantity_railed
  have htidy : t.TidyAt w.quantities.fresh := fun _ => by
    rw [Whole, hself]
    refine ⟨fun i hi => (isNode_railed _).trans ?_, fun c hc => by cases hc⟩
    have hi : i = a.id ∨ i = b.id := by
      simpa [railOver, Quantity.nodeIds, Quantity.pivot?] using hi
    rcases hi with rfl | rfl <;> assumption
  have hrefresh : (refreshOne w.quantities.fresh).wp (fun o u => o = .ok () ∧ u = t) t := by
    have hmem : w.quantities.fresh ∈ t.declared := by simp [t, railed]
    refine (refreshOne_cases (sound_railed_nil h) hmem htidy).mono fun o u => ?_
    rw [hself]
    cases o with
    | error e => rintro ⟨-, ⟨e, he⟩ | ⟨e, he⟩⟩ <;> cases he
    | ok _ =>
      -- there is no spring to be set
      rintro ⟨v, hv, rfl⟩
      exact ⟨rfl, by rw [hv.unique (.refl _) fun i hi => by cases hi]; rfl⟩
  unfold enter
  simp only [wp_bind, wp_read, next_ok, wp_change]
  rw [show w.passId.quantities.fresh = w.quantities.fresh from rfl, ← railed_nil]
  refine hrefresh.mono fun o u => ?_
  rintro ⟨rfl, rfl⟩
  exact ⟨rfl, rfl⟩

/-- No captive is refused: the rail is there, and so are its ends and the captives. -/
theorem forEach_hold (h : w.Sound) {ka kb : Key} (ha : w.node? ka = some a)
    (hb : w.node? kb = some b) {ks : List Key} (hks : ∀ k ∈ ks, w.isNode k ∧ k ≠ ka ∧ k ≠ kb)
    (hc : w.graph.config.constants .rail = c) :
    (forEach (hold (some w.nextQuantity)) ks).wp
      (fun o t => o = .ok () ∧ t.Sound ∧ ∃ held, ks.eraseDups.map w.node? = held.map some ∧
        t = w.railed c a b held) (w.railed c a b []) := by
  refine wp_forEach_ok (I := fun done t => t.Sound ∧ ∃ held,
    done.eraseDups.map w.node? = held.map some ∧ t = w.railed c a b held)
    ⟨sound_railed_nil h, [], rfl, rfl⟩ ?_
  rintro done k rest rfl t ⟨ht, held, hheld, rfl⟩
  obtain ⟨hk, hka, hkb⟩ := hks k (by simp)
  obtain ⟨n, hn⟩ := Option.isSome_iff_exists.1 hk
  obtain ⟨-, rfl⟩ := Scene.of_node?_eq_some hn
  obtain ⟨-, rfl⟩ := Scene.of_node?_eq_some ha
  obtain ⟨-, rfl⟩ := Scene.of_node?_eq_some hb
  let t := w.railed c a b held
  have hself : t.quantity w.quantities.fresh = w.railOver a b held := quantity_railed
  have hname : t.quantityRef? (some w.nextQuantity) = some w.quantities.fresh :=
    ht.quantityRef?_iff.2 ⟨by simp [railed], by rw [quantity_railed]; rfl⟩
  have hover : (w.railOver a b held).isOver (some n.id) = false :=
    isOver_railOver (fun e => hka (congrArg some e)) fun e => hkb (congrArg some e)
  have hnode : ∀ m, w.node? (some m.id) = some m → ∃ is, t.node? (some m.id) =
      some { m with springIds := is } := fun m hm => ⟨_, (node?_railed _).trans (congrArg _ hm)⟩
  -- a node that was met before is held, and no other
  have hmet : (∃ m ∈ held, m.id = n.id) ↔ some n.id ∈ done := by
    have hmem : ∀ m, m ∈ held ↔ ∃ k ∈ done, w.node? k = some m := fun m => by
      have := congrArg (some m ∈ ·) hheld
      simpa using this.symm
    constructor
    · rintro ⟨m, hm, hid⟩
      obtain ⟨k, hk, hkm⟩ := (hmem m).1 hm
      rwa [← hid, (Scene.of_node?_eq_some hkm).2]
    · exact fun hk => ⟨n, (hmem n).2 ⟨_, hk, hn⟩, rfl⟩
  have hgrown := hold_grown ht (some w.nextQuantity) (some n.id)
  obtain ⟨is, htn⟩ := hnode n hn
  by_cases hdone : some n.id ∈ done
  · have hagain := hold_again hname (by rw [hself]; rfl) htn (by rw [hself]; exact hover)
      (by rw [hself]; exact springHolding?_railOver.2 (hmet.2 hdone))
    refine hagain.mono fun o u => ?_
    rintro ⟨rfl, rfl⟩
    exact ⟨rfl, ht, held, by rw [eraseDups_concat, if_pos hdone, List.append_nil]; exact hheld, rfl⟩
  · obtain ⟨isa, hta⟩ := hnode a ha
    obtain ⟨isb, htb⟩ := hnode b hb
    have hnew : ∀ m ∈ held, m.id ≠ n.id := fun m hm e => hdone (hmet.1 ⟨m, hm, e⟩)
    have hfree : (w.railOver a b held).springHolding? (some n.id) = none := by
      rw [← Option.not_isSome_iff_eq_none, springHolding?_railOver]
      exact fun ⟨m, hm, e⟩ => hnew m hm e
    have hmount := hold_mount hname (by rw [hself]; rfl) htn (by rw [hself]; exact hover)
      (by rw [hself]; exact hta) (by rw [hself]; exact htb) (by rw [hself]; exact hfree) hc
    refine (hmount.and hgrown).mono fun o u => ?_
    rintro ⟨⟨rfl, rfl⟩, hu⟩
    refine ⟨rfl, hu.sound, held ++ [n], ?_, mount_railed ht hnew⟩
    rw [eraseDups_concat, if_neg hdone, List.map_append, hheld]
    simp [hn]

/-! ### The call -/

/-- A node that is needed is not there, the ends of the rail are the same, or a captive is one of
them. -/
def Bars (w : Sketch K) (a b : Key) (captives : List Key) : Prop :=
  ¬ w.isNode a ∨ ¬ w.isNode b ∨ a = b ∨ ∃ k ∈ captives, ¬ w.isNode k ∨ k = a ∨ k = b

omit [Scalar K] in
/-- All captives are looked at, and nothing changes. -/
theorem needCaptives_cases (w : Sketch K) (a b : Id) (ks : List Key) :
    (needCaptives a b ks).wp (fun o t => t = w ∧ match o with
      | .error _ => ∃ k ∈ ks, ¬ w.isNode k ∨ k = some a ∨ k = some b
      | .ok _ => ∀ k ∈ ks, w.isNode k ∧ k ≠ some a ∧ k ≠ some b) w := by
  unfold needCaptives
  induction ks with
  | nil => exact ⟨rfl, by simp⟩
  | cons k ks ih =>
    rw [wp_forEach_cons, wp_bind, wp_needOwnNode]
    cases hn : w.node? k with
    | none => exact ⟨rfl, k, by simp, .inl (by simp [Scene.isNode, hn])⟩
    | some n =>
      obtain ⟨hmem, rfl⟩ := Scene.of_node?_eq_some hn
      simp only [next_ok, wp_ite, wp_fail, wp_pure, next_error]
      split
      · next he => exact ⟨trivial, some n.id, by simp, .inr (by simpa using he)⟩
      · next hne =>
        refine ih.mono fun o t h => ?_
        obtain ⟨ht, ho⟩ := h
        refine ⟨ht, ?_⟩
        cases o with
        | error e =>
          obtain ⟨k, hk, hbar⟩ := ho
          exact ⟨k, by simp [hk], hbar⟩
        | ok _ =>
          refine List.forall_mem_cons.2 ⟨⟨Scene.isNode_of_mem hmem, ?_⟩, ho⟩
          simpa [not_or] using hne

omit [Scalar K] in
theorem not_bars {ka kb : Key} {ks : List Key} : ¬ w.Bars ka kb ks ↔
    w.isNode ka ∧ w.isNode kb ∧ ka ≠ kb ∧ ∀ k ∈ ks, w.isNode k ∧ k ≠ ka ∧ k ≠ kb := by
  simp [Bars]

/-- The rule for a rail: where it is barred nothing happens, and otherwise the captives are held on
one that holds nothing yet. -/
theorem wp_declareRail (h : w.Sound) {ka kb : Key} {ks : List Key}
    {Q : Except (Failure K) Ref → Sketch K → Prop} (hbar : w.Bars ka kb ks → ∀ e, Q (.error e) w)
    (hgo : ∀ a b, w.node? ka = some a → w.node? kb = some b → ¬ w.Bars ka kb ks →
      (forEach (hold (some w.nextQuantity)) ks).wp
        (fun o t => Q (o.map fun _ => w.quantities.fresh) t) (w.railed c a b [])) :
    (declareRail ka kb ks).wp Q w := by
  unfold declareRail
  rw [wp_bind, wp_report, next_ok, wp_bind, wp_needOwnNode]
  cases ha : w.node? ka with
  | none => exact hbar (.inl (by simp [Scene.isNode, ha])) _
  | some a =>
  obtain ⟨hma, rfl⟩ := Scene.of_node?_eq_some ha
  simp only [next_ok]
  rw [wp_bind, wp_needOwnNode]
  cases hb : w.node? kb with
  | none => exact hbar (.inr (.inl (by simp [Scene.isNode, hb]))) _
  | some b =>
  obtain ⟨hmb, rfl⟩ := Scene.of_node?_eq_some hb
  simp only [next_ok]
  rw [wp_ite]
  split
  · next he => exact hbar (.inr (.inr (.inl (congrArg some he)))) _
  next hne =>
  rw [wp_bind]
  refine (needCaptives_cases w a.id b.id ks).mono fun o t => ?_
  rintro ⟨rfl, ho⟩
  cases o with
  | error e => exact hbar (.inr (.inr (.inr ho))) _
  | ok _ =>
  have hnode : ∀ n ∈ t.graph.nodes, t.isNode (some n.id) := fun n => Scene.isNode_of_mem
  have hfree : ¬ t.Bars (some a.id) (some b.id) ks :=
    not_bars.2 ⟨hnode a hma, hnode b hmb, fun e => hne (Option.some.inj e), ho⟩
  unfold nextId
  simp only [next_ok, wp_bind, wp_read, wp_change, wp_pure]
  refine (enter_railOver (c := c) h (hnode a hma) (hnode b hmb)).mono fun o u => ?_
  rintro ⟨rfl, rfl⟩
  simp only [next_ok, wp_bind]
  refine (hgo a b ha hb hfree).mono fun o u hQ => ?_
  cases o with
  | error e => exact hQ
  | ok _ => exact hQ

/-- A rail is declared as `railed` says or the call is barred, and nothing else can happen. -/
theorem declareRail_cases (h : w.Sound) (hc : w.graph.config.constants .rail = c) (ka kb : Key)
    (ks : List Key) :
    (declareRail ka kb ks).wp (fun o t => match o with
      | .error _ => w.Bars ka kb ks ∧ t = w
      | .ok r => ¬ w.Bars ka kb ks ∧ r = w.quantities.fresh ∧ ∃ a b held,
          w.node? ka = some a ∧ w.node? kb = some b ∧
          ks.eraseDups.map w.node? = held.map some ∧ t = w.railed c a b held) w := by
  refine wp_declareRail (c := c) h (fun hbar _ => ⟨hbar, rfl⟩) fun a b ha hb hfree => ?_
  obtain ⟨-, -, -, hks⟩ := not_bars.1 hfree
  refine (forEach_hold h ha hb hks hc).mono fun o t => ?_
  rintro ⟨rfl, -, held, hheld, rfl⟩
  exact ⟨hfree, rfl, a, b, held, ha, hb, hheld, rfl⟩

end Sketch

namespace Bench

open Act

/-- After every run a rail is declared unless a node is not there, its ends are the same or a
captive is one of them. Where the call fails nothing has changed. Otherwise there is one more rail:
it holds the listed nodes in the order of their first occurrence, each by one new spring, and
nothing else has changed (`Sketch.railed`). -/
theorem railed_after_run {K : Type} [Scalar K] (c : Config K) (springs : Arena (Spring K))
    (quantities : Arena (Quantity K)) (ops : List (Op K)) (a b : Key) (captives : List Key) :
    let w := (after ops (empty c springs quantities)).toSketch
    (Sketch.declareRail a b captives).wp (fun o t => match o with
      | .error _ => w.Bars a b captives ∧ t = w
      | .ok r => ¬ w.Bars a b captives ∧ r = w.quantities.fresh ∧ ∃ m n held,
          w.node? a = some m ∧ w.node? b = some n ∧
          captives.eraseDups.map w.node? = held.map some ∧
          t = w.railed (c.constants .rail) m n held) w := by
  intro w
  have h : w.Sound := sound_after c springs quantities ops
  have hconfig : w.graph.config = c :=
    (after_onward (Sketch.sound_empty c springs quantities) ops).scene.config
  exact Sketch.declareRail_cases h (by rw [hconfig]) a b captives

end Bench

end Linkage
