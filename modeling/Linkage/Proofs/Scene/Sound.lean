import Linkage.Proofs.Act
import Linkage.Scene.Basic
import Mathlib.Data.List.Find
import Mathlib.Data.List.Nodup

/-!
# Sound scenes

`Scene.Sound` says how the lists of a scene fit together: ids ascend and stay below their counters,
springs and connections join listed nodes, and every node keeps the ids of the springs at it in the
order of the list. Each change that an operation is made of has its lemma.

Changes that leave names and joints alone (`Scene.Alike`) need no lemma of their own.
-/

namespace Linkage.Scene

variable {K : Type} {w t u : Scene K} {k l : Key} {r s : Ref} {i j : Id} {n : Node K}

/-! ### Look-ups -/

theorem isNode_iff : w.isNode k ↔ ∃ n ∈ w.graph.nodes, some n.id = k := by
  simp [isNode, node?]

theorem isNode_of_mem (h : n ∈ w.graph.nodes) : w.isNode (some n.id) := isNode_iff.2 ⟨n, h, rfl⟩

theorem of_node?_eq_some (h : w.node? k = some n) : n ∈ w.graph.nodes ∧ some n.id = k :=
  ⟨List.mem_of_find?_eq_some h, by simpa using List.find?_some h⟩

theorem isNode_of_node? (h : w.node? k = some n) : w.isNode k := by
  simp [isNode, h]

variable [Scalar K]

theorem of_springRef?_eq_some (h : w.springRef? k = some r) :
    r ∈ w.graph.listed ∧ (w.spring r).id = k :=
  ⟨List.mem_of_find?_eq_some h, by simpa using List.find?_some h⟩

theorem springRef?_eq_none_iff :
    w.springRef? k = none ↔ ∀ r ∈ w.graph.listed, (w.spring r).id ≠ k := by
  simp [springRef?]

theorem mem_touching : r ∈ w.touching k ↔ r ∈ w.graph.listed ∧ k ∈ (w.spring r).endpoints := by
  simp [touching, Spring.contains]

theorem lt_size_of_id (h : (w.spring r).id = some i) : r < w.springs.size := by
  by_contra hr
  rw [spring, Arena.get_of_size_le (Nat.not_lt.1 hr)] at h
  cases h

/-- A spring with an endpoint among the nodes is an object of the arena. -/
theorem lt_size_of_endpoints (h : ∀ k ∈ (w.spring r).endpoints, w.isNode k) :
    r < w.springs.size := by
  by_contra hr
  have hd : w.spring r = default := Arena.get_of_size_le (Nat.not_lt.1 hr)
  rw [hd] at h
  obtain ⟨n, -, hn⟩ := isNode_iff.1 (h none (by simp [Spring.endpoints, default]))
  cases hn

/-! ### The invariant -/

/-- The lists of a scene fit together. -/
structure Sound (w : Scene K) : Prop where
  nodes_ascend : w.graph.nodes.Pairwise fun m n => m.id < n.id
  node_lt : ∀ n ∈ w.graph.nodes, n.id < w.graph.nextNode
  springs_ascend : w.graph.listed.Pairwise fun r s =>
    ∀ i j, (w.spring r).id = some i → (w.spring s).id = some j → i < j
  spring_lt : ∀ r ∈ w.graph.listed, ∃ i, (w.spring r).id = some i ∧ i < w.graph.nextSpring
  listed_lt : ∀ r ∈ w.graph.listed, r < w.springs.size
  endpoints : ∀ r ∈ w.graph.listed, ∀ k ∈ (w.spring r).endpoints, w.isNode k
  /-- A node keeps the ids of the springs at it, in the order of the list. -/
  attached : ∀ n ∈ w.graph.nodes,
    n.springIds.map some = (w.touching (some n.id)).map fun r => (w.spring r).id
  lines : ∀ c ∈ w.graph.connections, c.a ≠ c.b ∧ w.isNode (some c.a) ∧ w.isNode (some c.b)
  lines_apart : w.graph.connections.Pairwise fun c d => c.sameLine d = false

namespace Sound

theorem ids_nodup (h : w.Sound) : (w.graph.listed.map fun r => (w.spring r).id).Nodup := by
  refine List.pairwise_map.2 (h.springs_ascend.imp_of_mem fun {r s} hr hs hlt heq => ?_)
  obtain ⟨i, hi, -⟩ := h.spring_lt r hr
  exact Int.lt_irrefl i (hlt i i hi (heq ▸ hi))

theorem nodeIds_nodup (h : w.Sound) : (w.graph.nodes.map Node.id).Nodup :=
  List.pairwise_map.2 (h.nodes_ascend.imp fun hlt => Int.ne_of_lt hlt)

theorem listed_nodup (h : w.Sound) : w.graph.listed.Nodup := h.ids_nodup.of_map

/-- No two listed springs have one id. -/
theorem eq_of_id_eq (h : w.Sound) (hr : r ∈ w.graph.listed) (hs : s ∈ w.graph.listed)
    (e : (w.spring r).id = (w.spring s).id) : r = s :=
  List.inj_on_of_nodup_map h.ids_nodup hr hs e

theorem springRef?_iff (h : w.Sound) :
    w.springRef? k = some r ↔ r ∈ w.graph.listed ∧ (w.spring r).id = k := by
  refine ⟨of_springRef?_eq_some, fun ⟨hr, hk⟩ => ?_⟩
  cases e : w.springRef? k with
  | none => exact absurd hk (springRef?_eq_none_iff.1 e r hr)
  | some s =>
    obtain ⟨hs, hk'⟩ := of_springRef?_eq_some e
    rw [h.eq_of_id_eq hs hr (hk'.trans hk.symm)]

theorem springIds_nodup (h : w.Sound) (hn : n ∈ w.graph.nodes) : n.springIds.Nodup := by
  refine List.Nodup.of_map some ?_
  rw [h.attached n hn]
  exact h.ids_nodup.sublist (List.filter_sublist.map _)

/-- A node keeps the ids of the springs at it and no others. -/
theorem mem_springIds (h : w.Sound) (hn : n ∈ w.graph.nodes) :
    i ∈ n.springIds ↔ ∃ r ∈ w.touching (some n.id), (w.spring r).id = some i := by
  rw [← List.mem_map, ← h.attached n hn]
  simp

theorem springIds_eq (h : w.Sound) (hn : n ∈ w.graph.nodes) :
    n.springIds = (w.touching (some n.id)).filterMap fun r => (w.spring r).id := by
  have hatt := congrArg (List.filterMap id) (h.attached n hn)
  simpa [List.filterMap_map, Function.comp_def] using hatt

/-- Where springs are struck from the list, a node that keeps the rest has lost their ids. -/
theorem springIds_filter (h : w.Sound) {gone : List Ref} (hgone : ∀ r ∈ gone, r ∈ w.graph.listed)
    (hspring : ∀ r, t.spring r = w.spring r)
    (hlisted : t.graph.listed = w.graph.listed.filter fun r => r ∉ gone) (hn : n ∈ w.graph.nodes) :
    ((t.touching (some n.id)).filterMap fun r => (t.spring r).id) =
      n.springIds.filter fun i => some i ∉ gone.map fun r => (w.spring r).id := by
  have htouching : t.touching (some n.id) =
      (w.touching (some n.id)).filter fun r => r ∉ gone := by
    simp only [touching, hspring, hlisted, List.filter_filter, Bool.and_comm]
  rw [h.springIds_eq hn, List.filter_filterMap, htouching, List.filterMap_filter]
  refine List.filterMap_congr fun r hr => ?_
  have hrl : r ∈ w.graph.listed := (mem_touching.1 hr).1
  obtain ⟨i, hi, -⟩ := h.spring_lt r hrl
  have hmem : some i ∈ gone.map (fun r => (w.spring r).id) ↔ r ∈ gone := by
    rw [← hi, List.mem_map]
    constructor
    · rintro ⟨r', hr', e⟩
      exact h.eq_of_id_eq (hgone r' hr') hrl e ▸ hr'
    · exact fun hr => ⟨r, hr, rfl⟩
  simp only [hspring, hi, Option.filter_some, decide_eq_true_eq, hmem]

/-- What a node keeps of springs can be read off the list of springs. -/
theorem nodes_eq (h : w.Sound) :
    w.graph.nodes = (w.graph.nodes.map fun n => { n with springIds := [] }).map fun n =>
      { n with springIds := (w.touching (some n.id)).filterMap fun r => (w.spring r).id } := by
  rw [List.map_map]
  refine ((List.map_congr_left fun n hn => ?_).trans (List.map_id _)).symm
  rw [Function.comp_apply, ← h.springIds_eq hn]
  rfl

/-- Where the same springs are listed and nodes are in the same places, they are the same nodes. -/
theorem nodes_ext (h : w.Sound) (h' : t.Sound) (hs : ∀ r ∈ w.graph.listed, t.spring r = w.spring r)
    (hl : t.graph.listed = w.graph.listed)
    (hp : (t.graph.nodes.map fun n => { n with springIds := [] }) =
      w.graph.nodes.map fun n => { n with springIds := [] }) : t.graph.nodes = w.graph.nodes := by
  have hids : ∀ k, (t.touching k).filterMap (fun r => (t.spring r).id) =
      (w.touching k).filterMap fun r => (w.spring r).id := fun k => by
    have htouch : t.touching k = w.touching k := by
      rw [touching, touching, hl]
      exact List.filter_congr fun r hr => by rw [hs r hr]
    rw [htouch]
    exact List.filterMap_congr fun r hr => by rw [hs r (mem_touching.1 hr).1]
  rw [h.nodes_eq, h'.nodes_eq, hp]
  simp only [hids]

/-- Sound graphs are the same if they are so without what nodes keep of springs. -/
theorem graph_ext (h : w.Sound) (h' : t.Sound) (hs : ∀ r ∈ w.graph.listed, t.spring r = w.spring r)
    (hc : t.graph.config = w.graph.config) (hl : t.graph.listed = w.graph.listed)
    (hp : (t.graph.nodes.map fun n => { n with springIds := [] }) =
      w.graph.nodes.map fun n => { n with springIds := [] })
    (hk : t.graph.connections = w.graph.connections)
    (hn : t.graph.nextNode = w.graph.nextNode)
    (hns : t.graph.nextSpring = w.graph.nextSpring) : t.graph = w.graph := by
  have hnodes : t.graph.nodes = w.graph.nodes := h.nodes_ext h' hs hl hp
  obtain ⟨springs, c, nodes, listed, connections, nextNode, nextSpring⟩ := t
  cases hc
  cases hl
  cases hnodes
  cases hk
  cases hn
  cases hns
  rfl

/-- Sound scenes are the same if they are so without what nodes keep of springs. -/
theorem ext (h : w.Sound) (h' : t.Sound) (hs : t.springs = w.springs)
    (hc : t.graph.config = w.graph.config) (hl : t.graph.listed = w.graph.listed)
    (hp : (t.graph.nodes.map fun n => { n with springIds := [] }) =
      w.graph.nodes.map fun n => { n with springIds := [] })
    (hk : t.graph.connections = w.graph.connections)
    (hn : t.graph.nextNode = w.graph.nextNode)
    (hns : t.graph.nextSpring = w.graph.nextSpring) : t = w := by
  have hgraph : t.graph = w.graph :=
    h.graph_ext h' (fun r _ => congrArg (·.get r) hs) hc hl hp hk hn hns
  cases t
  cases hs
  cases hgraph
  rfl

end Sound

/-- A graph with nothing in it, whatever springs there are elsewhere. -/
theorem sound_empty (c : Config K) (a : Arena (Spring K)) :
    Sound { springs := a, graph := { config := c } } := by
  constructor <;> simp

/-! ### Changes that leave names and joints alone -/

/-- The two scenes list the same things under the same names, joined in the same way. -/
structure Alike (w t : Scene K) : Prop where
  nodes : (t.graph.nodes.map fun n => (n.id, n.springIds)) =
    w.graph.nodes.map fun n => (n.id, n.springIds)
  listed : t.graph.listed = w.graph.listed
  connections : t.graph.connections = w.graph.connections
  nextNode : t.graph.nextNode = w.graph.nextNode
  nextSpring : t.graph.nextSpring = w.graph.nextSpring
  size_le : w.springs.size ≤ t.springs.size
  id : ∀ r ∈ w.graph.listed, (t.spring r).id = (w.spring r).id
  kind : ∀ r ∈ w.graph.listed, (t.spring r).kind = (w.spring r).kind
  endpoints : ∀ r ∈ w.graph.listed, (t.spring r).endpoints = (w.spring r).endpoints
  config : t.graph.config = w.graph.config

namespace Alike

theorem refl (w : Scene K) : Alike w w := by
  constructor <;> simp

theorem trans (h : Alike w t) (h' : Alike t u) : Alike w u where
  nodes := h'.nodes.trans h.nodes
  listed := h'.listed.trans h.listed
  connections := h'.connections.trans h.connections
  nextNode := h'.nextNode.trans h.nextNode
  nextSpring := h'.nextSpring.trans h.nextSpring
  size_le := Nat.le_trans h.size_le h'.size_le
  id r hr := (h'.id r (h.listed ▸ hr)).trans (h.id r hr)
  kind r hr := (h'.kind r (h.listed ▸ hr)).trans (h.kind r hr)
  endpoints r hr := (h'.endpoints r (h.listed ▸ hr)).trans (h.endpoints r hr)
  config := h'.config.trans h.config

theorem exists_node (h : Alike w t) (hn : n ∈ t.graph.nodes) :
    ∃ m ∈ w.graph.nodes, m.id = n.id ∧ m.springIds = n.springIds := by
  have : (n.id, n.springIds) ∈ w.graph.nodes.map fun n => (n.id, n.springIds) :=
    h.nodes ▸ List.mem_map.2 ⟨n, hn, rfl⟩
  simpa using this

theorem ids (h : Alike w t) : t.graph.nodes.map Node.id = w.graph.nodes.map Node.id := by
  have := congrArg (List.map Prod.fst) h.nodes
  simpa [Function.comp_def] using this

theorem isNode_iff (h : Alike w t) : t.isNode k ↔ w.isNode k := by
  have hmem : ∀ w : Scene K, w.isNode k ↔ ∃ i ∈ w.graph.nodes.map Node.id, some i = k := by
    simp [Scene.isNode_iff]
  rw [hmem, hmem, h.ids]

theorem touching (h : Alike w t) : t.touching k = w.touching k := by
  rw [Scene.touching, Scene.touching, h.listed]
  refine List.filter_congr fun r hr => ?_
  rw [Spring.contains, Spring.contains, h.endpoints r hr]

theorem springRef? (h : Alike w t) : t.springRef? k = w.springRef? k := by
  rw [Scene.springRef?, Scene.springRef?, h.listed]
  refine List.find?_congr fun r hr => ?_
  rw [h.id r hr]

end Alike

theorem Sound.alike (h : w.Sound) (e : Alike w t) : t.Sound where
  nodes_ascend := by
    have : (w.graph.nodes.map Node.id).Pairwise (· < ·) := List.pairwise_map.2 h.nodes_ascend
    exact List.pairwise_map.1 (e.ids ▸ this)
  node_lt n hn := by
    obtain ⟨m, hm, hid, -⟩ := e.exists_node hn
    rw [e.nextNode, ← hid]
    exact h.node_lt m hm
  springs_ascend := by
    rw [e.listed]
    refine h.springs_ascend.imp_of_mem fun {r s} hr hs hlt => ?_
    rw [e.id r hr, e.id s hs]
    exact hlt
  spring_lt r hr := by
    rw [e.listed] at hr
    rw [e.id r hr, e.nextSpring]
    exact h.spring_lt r hr
  listed_lt r hr := Nat.lt_of_lt_of_le (h.listed_lt r (e.listed ▸ hr)) e.size_le
  endpoints r hr k hk := by
    rw [e.listed] at hr
    rw [e.endpoints r hr] at hk
    exact e.isNode_iff.2 (h.endpoints r hr k hk)
  attached n hn := by
    obtain ⟨m, hm, hid, hsp⟩ := e.exists_node hn
    rw [← hsp, h.attached m hm, ← hid, e.touching]
    exact List.map_congr_left fun r hr => (e.id r (mem_touching.1 hr).1).symm
  lines c hc := by
    rw [e.isNode_iff, e.isNode_iff]
    exact h.lines c (e.connections ▸ hc)
  lines_apart := e.connections ▸ h.lines_apart

end Linkage.Scene
