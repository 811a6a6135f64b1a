import Linkage.Proofs.Bench

/-!
# What goes with a node

Deleting a node with the quantities over it is a loop over lists that it cuts down itself.
`Sketch.Withdrawn` says what is left, each list for itself and with nothing but what was there
before; `withdrawn_of_stages` reads it off the stages of the deletion.
-/

namespace Linkage

variable {K : Type}

namespace Quantity

variable {q : Quantity K} {k : Key} {i : Id} {c : Id × Id}

/-- As it is without the captive and without the references to these quantities. -/
def without (q : Quantity K) (k : Key) (gone : List Id) : Quantity K :=
  { q with
    captives := q.captives.filter fun c => some c.1 != k
    springIds := q.springIds.filter fun i => q.springHolding? k != some i
    lower := q.lower.filter fun b => b.reference?.all (· ∉ gone)
    upper := q.upper.filter fun b => b.reference?.all (· ∉ gone) }

/-- A captive has one spring. -/
theorem springHolding?_eq_of_mem (hn : (q.captives.map Prod.fst).Nodup) (hc : c ∈ q.captives) :
    q.springHolding? (some c.1) = some c.2 := by
  cases hs : q.springHolding? (some c.1) with
  | none => exact absurd rfl (springHolding?_eq_none hs c hc)
  | some s =>
    obtain ⟨n, hn', hmem⟩ := springHolding?_eq_some hs
    have hsame : (n, s) = c := List.inj_on_of_nodup_map hn hmem hc (Option.some.inj hn').symm
    rw [← hsame]

/-- The spring that goes with a captive is its own and no other captive's. -/
theorem captives_without (hf : (q.captives.map Prod.fst).Nodup)
    (hs : (q.captives.map Prod.snd).Nodup) (gone : List Id) :
    (q.without k gone).captives.map Prod.snd =
      (q.captives.map Prod.snd).filter fun i => q.springHolding? k != some i := by
  rw [List.filter_map]
  refine congrArg _ (List.filter_congr fun c hc => ?_)
  rw [Bool.eq_iff_iff, bne_iff_ne, Function.comp_apply, bne_iff_ne, not_iff_not]
  constructor
  · rintro rfl
    exact springHolding?_eq_of_mem hf hc
  · intro h
    obtain ⟨n, rfl, hmem⟩ := springHolding?_eq_some h
    rw [← List.inj_on_of_nodup_map hs hmem hc rfl]

theorem springHolding?_of_captives_eq_nil (h : q.captives = []) : q.springHolding? k = none := by
  simp [springHolding?, h]

/-- What is left of the springs of a proper quantity when only the captive of `k` went. -/
theorem Proper.springIds_without {q' : Quantity K} (h : q.Proper) (h' : q'.Proper)
    (hs : (q.captives.map Prod.snd).Nodup) (hk : q'.kind = q.kind)
    (hsub : ∀ i ∈ q'.springIds, i ∈ q.springIds) (gone : List Id)
    (hc : q'.captives = (q.without k gone).captives) :
    q'.springIds = (q.without k gone).springIds := by
  rw [h.springIds_eq h' hk hsub]
  show _ = q.springIds.filter _
  split
  · next hrail =>
    obtain ⟨hids, hf, -⟩ := (proper_rail hrail).1 h
    rw [hc, hids, captives_without hf hs]
  · next hrail =>
    have hnil : q.captives = [] := by
      by_contra hne
      obtain ⟨c, hmem⟩ := List.exists_mem_of_ne_nil _ hne
      exact hrail (h.rail_of_mem hmem)
    rw [springHolding?_of_captives_eq_nil hnil]
    exact (List.filter_eq_self.2 fun _ _ => rfl).symm

end Quantity

namespace Sketch

open Act

variable {w t u : Sketch K} {k : Key} {r s : Ref} {i : Id} {b b' : Option (Limit K)}

/-! ### What goes -/

/-- The declared quantities over a node. -/
def onNode (w : Sketch K) (k : Key) : List Ref :=
  w.declared.filter fun r => (w.quantity r).isOver k

variable [Scalar K]

/-- The listed springs that are at a node or belong to a quantity over it. -/
def springsOver (w : Sketch K) (k : Key) : List Ref :=
  w.graph.listed.filter fun s =>
    (w.spring s).contains k || (w.ownedIds (w.onNode k)).any fun i => (w.spring s).id == some i

/-- The node is gone with the quantities over it and their springs, and nothing else is. -/
structure Withdrawn (k : Key) (w t : Sketch K) : Prop where
  declared : t.declared = w.declared.filter fun r => r ∉ w.onNode k
  /-- Every other quantity loses its captive at the node and the references to what is gone. -/
  quantity : ∀ r ∈ t.declared,
    t.quantity r = (w.quantity r).without k ((w.onNode k).map fun r => (w.quantity r).id)
  springs : t.springs = w.springs
  listed : t.graph.listed = w.graph.listed.filter fun s => s ∉ w.springsOver k
  nodes : t.graph.nodes = (w.graph.nodes.filter fun n => some n.id != k).map fun n =>
    { n with springIds :=
        n.springIds.filter fun i => some i ∉ (w.springsOver k).map fun s => (w.spring s).id }
  connections : t.graph.connections = w.graph.connections.filter fun c => !c.contains k
  config : t.graph.config = w.graph.config
  nextNode : t.graph.nextNode = w.graph.nextNode
  nextSpring : t.graph.nextSpring = w.graph.nextSpring
  nextQuantity : t.nextQuantity = w.nextQuantity

omit [Scalar K] in
theorem mem_onNode :
    r ∈ w.onNode k ↔ r ∈ w.declared ∧ ∃ i ∈ (w.quantity r).nodeIds, some i = k := by
  simp [onNode, Quantity.isOver]

theorem mem_springsOver : s ∈ w.springsOver k ↔ s ∈ w.graph.listed ∧
    ((w.spring s).contains k ∨ ∃ r ∈ w.onNode k, ∃ i, w.Owns r i ∧ (w.spring s).id = some i) := by
  rw [springsOver, List.mem_filter, Bool.or_eq_true, List.any_eq_true]
  refine and_congr_right fun _ => or_congr_right ?_
  constructor
  · rintro ⟨i, hi, hid⟩
    obtain ⟨r, hr, hi⟩ := mem_ownedIds.1 hi
    exact ⟨r, hr, i, ⟨(mem_onNode.1 hr).1, hi⟩, eq_of_beq hid⟩
  · rintro ⟨r, hr, i, hi, hid⟩
    exact ⟨i, mem_ownedIds.2 ⟨r, hr, hi.2⟩, beq_iff_eq.2 hid⟩

/-! ### What is left -/

theorem Shed.mem_declared_over (hu : Shed (fun i => some i ≠ k) w u)
    (huk : u.Within fun i => some i ≠ k) :
    r ∈ u.declared ↔ r ∈ w.declared ∧ r ∉ w.onNode k := by
  rw [hu.mem_declared huk, mem_onNode]
  simp +contextual

/-- A bound is open if and only if it referred to what is gone. -/
theorem Opened.eq_filter (h : w.Sound) {gone : List Ref} (ho : Opened w u b b')
    (hb : u.Backed b') (hgone : ∀ r, r ∈ u.declared ↔ r ∈ w.declared ∧ r ∉ gone)
    (hsub : ∀ r ∈ gone, r ∈ w.declared)
    (hid : ∀ r ∈ u.declared, (u.quantity r).id = (w.quantity r).id) :
    b' = b.filter fun l => l.reference?.all (· ∉ gone.map fun r => (w.quantity r).id) := by
  rcases ho with rfl | ⟨rfl, r, hr, hru, rfl⟩
  · cases b' with
    | none => rfl
    | some l =>
      refine (Option.filter_some_pos ?_).symm
      cases l with
      | literal n => rfl
      | reference i =>
        obtain ⟨r, hr, rfl⟩ := hb i rfl
        obtain ⟨hrw, hrg⟩ := (hgone r).1 hr
        have hout : ∀ s ∈ gone, (w.quantity s).id ≠ (u.quantity r).id := by
          intro s hs e
          rw [hid r hr] at e
          exact hrg (h.eq_of_id_eq (hsub s hs) hrw e ▸ hs)
        simpa [Bound.reference?] using hout
  · have hin : r ∈ gone := by
      by_contra hrg
      exact hru ((hgone r).2 ⟨hr, hrg⟩)
    refine (Option.filter_some_neg ?_).symm
    simpa [Bound.reference?] using ⟨r, hin, rfl⟩

theorem Shed.quantity_eq (hu : Shed (fun i => some i ≠ k) w u) (h : w.Sound)
    (huk : u.Within fun i => some i ≠ k) (hr : r ∈ u.declared) :
    u.quantity r = (w.quantity r).without k ((w.onNode k).map fun r => (w.quantity r).id) := by
  have hrw : r ∈ w.declared := hu.declared.subset hr
  have hgone : ∀ r, r ∈ u.declared ↔ r ∈ w.declared ∧ r ∉ w.onNode k := fun r =>
    hu.mem_declared_over huk
  have hsub : ∀ r ∈ w.onNode k, r ∈ w.declared := fun r hr => (mem_onNode.1 hr).1
  have hid : ∀ r ∈ u.declared, (u.quantity r).id = (w.quantity r).id := fun r => hu.id_eq
  have hlower := (hu.lower r hr).eq_filter h (hu.sound.lower r hr) hgone hsub hid
  have hupper := (hu.upper r hr).eq_filter h (hu.sound.upper r hr) hgone hsub hid
  have hcaptives : (u.quantity r).captives =
      (w.quantity r).captives.filter fun c => some c.1 != k := by
    refine eq_of_sublist (h.captives_nodup hrw).of_map (hu.captives r hr).1 List.filter_sublist
      fun c => ?_
    rw [hu.mem_captives huk hr, List.mem_filter, bne_iff_ne]
  obtain ⟨captives, springIds, lower, upper, e⟩ := hu.kept r hr
  have hsprings : (u.quantity r).springIds = ((w.quantity r).without k
      ((w.onNode k).map fun r => (w.quantity r).id)).springIds := by
    refine (h.proper r hrw).springIds_without (hu.sound.proper r hr) (h.captives_nodup hrw) ?_
      (fun i hi => (hu.owns r i ⟨hr, hi⟩).2) _ hcaptives
    rw [e]
  rw [e] at hlower hupper hcaptives hsprings ⊢
  cases hlower
  cases hupper
  cases hcaptives
  cases hsprings
  rfl

/-- A spring goes with its owner or with the node that it is at. -/
theorem Shed.mem_listed_erased (hu : Shed (fun i => some i ≠ k) w u) (h : w.Sound)
    (huk : u.Within fun i => some i ≠ k) :
    s ∈ u.graph.listed ∧ (w.spring s).contains k = false ↔
      s ∈ w.graph.listed ∧ s ∉ w.springsOver k := by
  rw [hu.listed, mem_springsOver]
  constructor
  · rintro ⟨⟨hs, hown⟩, hk⟩
    refine ⟨hs, ?_⟩
    rintro ⟨-, hk' | ⟨r, hr, i, hi, hid⟩⟩
    · rw [hk] at hk'
      cases hk'
    · exact ((hu.mem_declared_over huk).1 (hown r i hi hid).1).2 hr
  · rintro ⟨hs, hover⟩
    rw [not_and] at hover
    obtain ⟨hk, hover⟩ := not_or.1 (hover hs)
    rw [Bool.not_eq_true] at hk
    refine ⟨⟨hs, fun r i hi hid => ?_⟩, hk⟩
    have hru : r ∈ u.declared :=
      (hu.mem_declared_over huk).2 ⟨hi.1, fun hr => hover ⟨r, hr, i, hi, hid⟩⟩
    refine ⟨hru, ?_⟩
    rw [hu.quantity_eq h huk hru]
    refine List.mem_filter.2 ⟨hi.2, bne_iff_ne.2 fun hheld => ?_⟩
    -- the spring would hold the node, so that it would be at it
    obtain ⟨c, rfl, hc⟩ := Quantity.springHolding?_eq_some hheld
    have hends := (h.captive_made hi.1 hc (h.scene.springRef?_iff.2 ⟨hs, hid⟩)).2
    simp [Spring.contains, hends] at hk

theorem withdrawn_of_stages {v : Scene K} (h : w.Sound) (hu : Shed (fun i => some i ≠ k) w u)
    (huk : u.Within fun i => some i ≠ k) (hv : Scene.Erased k u.toScene v) :
    Withdrawn k w (u.withScene v) := by
  have hdecl : u.declared = w.declared.filter fun r => r ∉ w.onNode k := by
    refine eq_of_sublist h.declared_nodup hu.declared List.filter_sublist fun r => ?_
    rw [hu.mem_declared_over huk, List.mem_filter, decide_eq_true_iff]
  have hquantity := fun r => hu.quantity_eq h huk (r := r)
  have hspring : ∀ s, v.spring s = w.spring s := fun s =>
    (congrArg (·.get s) hv.springs).trans (hu.struck.spring s)
  have hlisted : v.graph.listed = w.graph.listed.filter fun s => s ∉ w.springsOver k := by
    refine eq_of_sublist h.scene.listed_nodup ?_ List.filter_sublist fun s => ?_
    · rw [hv.listed]
      exact List.filter_sublist.trans hu.struck.listed
    · rw [hv.listed, List.mem_filter, List.mem_filter, decide_eq_true_iff, Bool.not_eq_true',
        ← hu.mem_listed_erased h huk, show u.spring s = w.spring s from hu.struck.spring s]
  refine
    { declared := hdecl
      quantity := hquantity
      springs := hv.springs.trans hu.struck.springs
      listed := hlisted
      nodes := ?_
      connections := hv.connections.trans (by rw [hu.struck.connections])
      config := hv.onward.later.config.trans hu.struck.config
      nextNode := hv.nextNode.trans hu.struck.nextNode
      nextSpring := hv.nextSpring.trans hu.struck.nextSpring
      nextQuantity := hu.nextQuantity }
  show v.graph.nodes = _
  rw [hv.onward.sound.nodes_eq, hv.places, hu.struck.places_filter, List.map_map]
  refine List.map_congr_left fun n hn => ?_
  have hnw : n ∈ w.graph.nodes := (List.mem_filter.1 hn).1
  rw [Function.comp_apply, Node.mk.injEq]
  exact ⟨rfl, rfl, rfl,
    h.scene.springIds_filter (fun s hs => (mem_springsOver.1 hs).1) hspring hlisted hnw⟩

/-- A node is deleted with the quantities over it, whether or not it is there. -/
theorem withdrawNode_withdrawn (h : w.Sound) (k : Key) :
    (withdrawNode k).wp (fun o t => o = .ok () ∧ Withdrawn k w t) w := by
  refine (withdrawNode_stages h k).mono fun o t => ?_
  rintro ⟨rfl, u, v, hu, huk, hv, rfl⟩
  exact ⟨rfl, withdrawn_of_stages h hu huk hv⟩

end Sketch

namespace Bench

open Act

variable [Scalar K]

/-- After every run, deleting a node with the quantities over it succeeds and takes away these
quantities, their springs, the springs and connections at the node and the node. What remains keeps
its order and all that it has, but for what refers to what is gone. -/
theorem removal_after_run (c : Config K) (springs : Arena (Spring K))
    (quantities : Arena (Quantity K)) (ops : List (Op K)) (k : Key) :
    let w := after ops (empty c springs quantities)
    let done := (Sketch.withdrawNode k).onSketch w
    done.outcome = .ok () ∧ Sketch.Withdrawn k w.toSketch done.state.toSketch := by
  intro w done
  have h : w.toSketch.Sound := sound_after c springs quantities ops
  exact Sketch.withdrawNode_withdrawn h k

end Bench

end Linkage
