import Linkage.Proofs.Scene.Sound

/-!
# Changes keep a scene sound

`Scene.Later w t` says that `t` may come after `w`: counters do not go back, and what carries an id
that was given out by then is what carried it then. `Scene.Onward w t` adds that `t` is sound. One
lemma for each change of `Linkage.Scene.Basic`, with the guard that its operations check.
-/

namespace Linkage.Scene

variable {K : Type} [Scalar K] {w t u : Scene K} {k l : Key} {r : Ref} {i : Id}

/-- Ids given out once stay with what they were given to, and the settings stay. -/
structure Later (w t : Scene K) : Prop where
  nextNode_le : w.graph.nextNode ≤ t.graph.nextNode
  nextSpring_le : w.graph.nextSpring ≤ t.graph.nextSpring
  size_le : w.springs.size ≤ t.springs.size
  node : ∀ n ∈ t.graph.nodes, n.id < w.graph.nextNode → ∃ m ∈ w.graph.nodes, m.id = n.id
  spring : ∀ r ∈ t.graph.listed, ∀ i, (t.spring r).id = some i → i < w.graph.nextSpring →
    r ∈ w.graph.listed ∧ (w.spring r).id = some i ∧ (t.spring r).kind = (w.spring r).kind ∧
      (t.spring r).endpoints = (w.spring r).endpoints
  config : t.graph.config = w.graph.config

namespace Later

theorem refl (w : Scene K) : Later w w where
  nextNode_le := Int.le_refl _
  nextSpring_le := Int.le_refl _
  size_le := Nat.le_refl _
  node n hn _ := ⟨n, hn, rfl⟩
  spring _ hr _ hi _ := ⟨hr, hi, rfl, rfl⟩
  config := rfl

theorem trans (h : Later w t) (h' : Later t u) : Later w u where
  nextNode_le := Int.le_trans h.nextNode_le h'.nextNode_le
  nextSpring_le := Int.le_trans h.nextSpring_le h'.nextSpring_le
  size_le := Nat.le_trans h.size_le h'.size_le
  node n hn hlt := by
    obtain ⟨m, hm, hid⟩ := h'.node n hn (Int.lt_of_lt_of_le hlt h.nextNode_le)
    obtain ⟨m', hm', hid'⟩ := h.node m hm (hid ▸ hlt)
    exact ⟨m', hm', hid'.trans hid⟩
  spring r hr i hi hlt := by
    obtain ⟨hr', hi', hk, he⟩ := h'.spring r hr i hi (Int.lt_of_lt_of_le hlt h.nextSpring_le)
    obtain ⟨hr'', hi'', hk', he'⟩ := h.spring r hr' i hi' hlt
    exact ⟨hr'', hi'', hk.trans hk', he.trans he'⟩
  config := h'.config.trans h.config

theorem of_alike (h : Alike w t) : Later w t where
  nextNode_le := Int.le_of_eq h.nextNode.symm
  nextSpring_le := Int.le_of_eq h.nextSpring.symm
  size_le := h.size_le
  node n hn _ := by
    obtain ⟨m, hm, hid, -⟩ := h.exists_node hn
    exact ⟨m, hm, hid⟩
  spring r hr i hi _ := by
    have hr' := h.listed ▸ hr
    exact ⟨hr', h.id r hr' ▸ hi, h.kind r hr', h.endpoints r hr'⟩
  config := h.config

/-- Where only nodes and springs are struck out. -/
theorem of_subset (hn : ∀ n ∈ t.graph.nodes, ∃ m ∈ w.graph.nodes, m.id = n.id)
    (hr : ∀ r ∈ t.graph.listed, r ∈ w.graph.listed) (hs : t.springs = w.springs)
    (hnn : t.graph.nextNode = w.graph.nextNode) (hns : t.graph.nextSpring = w.graph.nextSpring)
    (hc : t.graph.config = w.graph.config) : Later w t where
  nextNode_le := Int.le_of_eq hnn.symm
  nextSpring_le := Int.le_of_eq hns.symm
  size_le := Nat.le_of_eq (by rw [hs])
  node n h _ := hn n h
  spring r h i hi _ := by
    have e : t.spring r = w.spring r := congrArg (·.get r) hs
    exact ⟨hr r h, e ▸ hi, by rw [e], by rw [e]⟩
  config := hc

end Later

/-- A sound scene that may come after another one. -/
structure Onward (w t : Scene K) : Prop where
  sound : t.Sound
  later : Later w t

namespace Onward

theorem refl (h : w.Sound) : Onward w w := ⟨h, .refl w⟩

theorem trans (h : Onward w t) (h' : Onward t u) : Onward w u := ⟨h'.sound, h.later.trans h'.later⟩

theorem alike (h : Onward w t) (e : Alike t u) : Onward w u :=
  ⟨h.sound.alike e, h.later.trans (.of_alike e)⟩

end Onward

/-- A name that was given out stays with its spring. -/
theorem Later.springRef? (e : Later w t) (h : w.Sound) (hi : i < w.graph.nextSpring)
    (ht : t.springRef? (some i) = some r) : w.springRef? (some i) = some r := by
  obtain ⟨hr, hid⟩ := of_springRef?_eq_some ht
  obtain ⟨hr', hid', -⟩ := e.spring r hr i hid hi
  exact h.springRef?_iff.2 ⟨hr', hid'⟩

theorem Later.kind_eq (e : Later w t) (h : w.Sound) (hw : w.springRef? (some i) = some r)
    (ht : t.springRef? (some i) = some r) : (t.spring r).kind = (w.spring r).kind := by
  obtain ⟨hr, hid⟩ := of_springRef?_eq_some hw
  obtain ⟨hr', hid'⟩ := of_springRef?_eq_some ht
  obtain ⟨j, hj, hlt⟩ := h.spring_lt r hr
  cases hid.symm.trans hj
  exact (e.spring r hr' i hid' hlt).2.2.1

/-! ### Springs that change in place -/

theorem spring_setSpring_ne {s : Spring K} {r' : Ref} (h : r' ≠ r) :
    (w.setSpring r s).spring r' = w.spring r' :=
  Arena.get_set_ne h

theorem spring_setSpring_self {s : Spring K} (h : r < w.springs.size) :
    (w.setSpring r s).spring r = s :=
  Arena.get_set_self h

omit [Scalar K] in
/-- A write outside of the arena changes nothing. -/
theorem setSpring_of_size_le {s : Spring K} (h : w.springs.size ≤ r) : w.setSpring r s = w := by
  have hcells : w.springs.cells.setIfInBounds r s = w.springs.cells :=
    Array.setIfInBounds_eq_of_size_le h
  unfold setSpring Arena.set
  rw [hcells]

/-- Only the spring itself is another one; a write outside of the arena changes nothing. -/
theorem spring_setSpring (w : Scene K) (r : Ref) (s : Spring K) (r' : Ref) :
    (w.setSpring r s).spring r' = w.spring r' ∨ (r' = r ∧ (w.setSpring r s).spring r' = s) := by
  by_cases h : r' = r
  · subst h
    by_cases hr : r' < w.springs.size
    · exact .inr ⟨rfl, spring_setSpring_self hr⟩
    · exact .inl (by rw [setSpring_of_size_le (Nat.not_lt.1 hr)])
  · exact .inl (spring_setSpring_ne h)

theorem alike_setSpring {s : Spring K} (hi : s.id = (w.spring r).id)
    (hk : s.kind = (w.spring r).kind) (he : s.endpoints = (w.spring r).endpoints) :
    Alike w (w.setSpring r s) := by
  refine ⟨rfl, rfl, rfl, rfl, rfl, Nat.le_of_eq Arena.size_set.symm, ?_, ?_, ?_, rfl⟩ <;>
    intro r' _ <;>
    rcases spring_setSpring w r s r' with e | ⟨rfl, e⟩ <;> rw [e]
  exacts [hi, hk, he]

/-- A spring that is not listed may change in any way. -/
theorem alike_setSpring_of_notMem {s : Spring K} (h : r ∉ w.graph.listed) :
    Alike w (w.setSpring r s) := by
  have key : ∀ r' ∈ w.graph.listed, (w.setSpring r s).spring r' = w.spring r' := fun r' hr' =>
    spring_setSpring_ne fun e => h (e ▸ hr')
  refine ⟨rfl, rfl, rfl, rfl, rfl, Nat.le_of_eq Arena.size_set.symm, ?_, ?_, ?_, rfl⟩ <;>
    intro r' hr' <;> rw [key r' hr']

theorem alike_makeSpring (h : w.Sound) (s : Spring K) : Alike w (w.makeSpring s) := by
  have key : ∀ r' ∈ w.graph.listed, (w.makeSpring s).spring r' = w.spring r' := fun r' hr' =>
    Arena.get_alloc_of_lt (h.listed_lt r' hr')
  refine ⟨rfl, rfl, rfl, rfl, rfl, ?_, ?_, ?_, ?_, rfl⟩
  · show w.springs.size ≤ (w.springs.alloc s).size
    rw [Arena.size_alloc]
    exact Nat.le_succ _
  all_goals intro r' hr'; rw [key r' hr']

/-! ### Nodes that change in place -/

theorem alike_mapNodes {f : Node K → Node K} (hi : ∀ n, (f n).id = n.id)
    (hs : ∀ n, (f n).springIds = n.springIds) : Alike w (w.mapNodes f) := by
  refine ⟨?_, rfl, rfl, rfl, rfl, Nat.le_refl _, fun _ _ => rfl, fun _ _ => rfl, fun _ _ => rfl,
    rfl⟩
  simp [mapNodes, Function.comp_def, hi, hs]

theorem alike_changeNode {f : Node K → Node K} (hi : ∀ n, (f n).id = n.id)
    (hs : ∀ n, (f n).springIds = n.springIds) : Alike w (w.changeNode i f) := by
  refine alike_mapNodes (fun n => ?_) fun n => ?_ <;> split <;> simp [hi, hs]

/-! ### Nodes and connections -/

theorem isNode_insertNode {p : Point K} :
    (w.insertNode p).isNode k ↔ w.isNode k ∨ some w.graph.nextNode = k := by
  simp [isNode_iff, insertNode, Node.new, or_and_right, exists_or]

theorem onward_insertNode (h : w.Sound) (p : Point K) : Onward w (w.insertNode p) where
  sound :=
    { h with
      nodes_ascend := List.pairwise_append.2 ⟨h.nodes_ascend, List.pairwise_singleton _ _,
        fun m hm n hn => by
          rw [List.mem_singleton.1 hn]
          exact h.node_lt m hm⟩
      node_lt := fun n hn => by
        rcases List.mem_append.1 hn with hn | hn
        · exact Int.lt_trans (h.node_lt n hn) (Int.lt_succ _)
        · rw [List.mem_singleton.1 hn]
          exact Int.lt_succ _
      endpoints := fun r hr k hk => isNode_insertNode.2 (.inl (h.endpoints r hr k hk))
      attached := fun n hn => by
        rcases List.mem_append.1 hn with hn | hn
        · exact h.attached n hn
        · -- nothing can be at the new node: endpoints have older ids
          rw [List.mem_singleton.1 hn]
          have : w.touching (some w.graph.nextNode) = [] := by
            refine List.eq_nil_iff_forall_not_mem.2 fun r hr => ?_
            obtain ⟨hr, hk⟩ := mem_touching.1 hr
            obtain ⟨m, hm, e⟩ := isNode_iff.1 (h.endpoints r hr _ hk)
            exact Int.lt_irrefl _ (Option.some.inj e ▸ h.node_lt m hm)
          show [].map some = (w.touching (some w.graph.nextNode)).map _
          rw [this]
          rfl
      lines := fun c hc => by
        obtain ⟨hne, ha, hb⟩ := h.lines c hc
        exact ⟨hne, isNode_insertNode.2 (.inl ha), isNode_insertNode.2 (.inl hb)⟩ }
  later :=
    { Later.refl w with
      nextNode_le := Int.le_of_lt (Int.lt_succ _)
      node := fun n hn hlt => by
        rcases List.mem_append.1 hn with hn | hn
        · exact ⟨n, hn, rfl⟩
        · rw [List.mem_singleton.1 hn] at hlt
          exact absurd hlt (Int.lt_irrefl _) }

omit [Scalar K] in
theorem isNode_eraseNode : (w.eraseNode k).isNode l ↔ w.isNode l ∧ l ≠ k := by
  simp only [isNode_iff, eraseNode, List.mem_filter, bne_iff_ne]
  constructor
  · rintro ⟨n, ⟨hn, hne⟩, rfl⟩
    exact ⟨⟨n, hn, rfl⟩, hne⟩
  · rintro ⟨⟨n, hn, rfl⟩, hne⟩
    exact ⟨n, ⟨hn, hne⟩, rfl⟩

/-- A node that no spring touches any more. -/
theorem onward_eraseNode (h : w.Sound) (hk : w.touching k = []) : Onward w (w.eraseNode k) where
  sound :=
    { h with
      nodes_ascend := h.nodes_ascend.sublist List.filter_sublist
      node_lt := fun n hn => h.node_lt n (List.mem_filter.1 hn).1
      endpoints := fun r hr l hl => isNode_eraseNode.2 ⟨h.endpoints r hr l hl, by
        rintro rfl
        exact List.not_mem_nil (hk ▸ mem_touching.2 ⟨hr, hl⟩ : r ∈ [])⟩
      attached := fun n hn => h.attached n (List.mem_filter.1 hn).1
      lines := fun c hc => by
        obtain ⟨hc, hck⟩ := List.mem_filter.1 hc
        simp only [Connection.contains, Bool.not_or, Bool.and_eq_true, Bool.not_eq_true',
          beq_eq_false_iff_ne] at hck
        obtain ⟨hne, ha, hb⟩ := h.lines c hc
        exact ⟨hne, isNode_eraseNode.2 ⟨ha, hck.1⟩, isNode_eraseNode.2 ⟨hb, hck.2⟩⟩
      lines_apart := h.lines_apart.sublist List.filter_sublist }
  later := .of_subset (fun n hn => ⟨n, (List.mem_filter.1 hn).1, rfl⟩) (fun _ hr => hr) rfl rfl rfl
    rfl

theorem onward_insertConnection (h : w.Sound) {c : Connection} (ha : w.isNode (some c.a))
    (hb : w.isNode (some c.b))
    (hn : ∀ d ∈ w.graph.connections, d.sameLine c = false) : Onward w (w.insertConnection c) where
  sound :=
    { h with
      lines := fun d hd => by
        rcases List.mem_append.1 hd with hd | hd
        · exact h.lines d hd
        · rw [List.mem_singleton.1 hd]
          exact ⟨c.ne, ha, hb⟩
      lines_apart := List.pairwise_append.2 ⟨h.lines_apart, List.pairwise_singleton _ _,
        fun d hd e he => by
          rw [List.mem_singleton.1 he]
          exact hn d hd⟩ }
  later := .of_subset (fun n hn => ⟨n, hn, rfl⟩) (fun _ hr => hr) rfl rfl rfl rfl

theorem onward_eraseConnection (h : w.Sound) (k l : Key) : Onward w (w.eraseConnection k l) where
  sound :=
    { h with
      lines := fun d hd => h.lines d (List.mem_filter.1 hd).1
      lines_apart := h.lines_apart.sublist List.filter_sublist }
  later := .of_subset (fun n hn => ⟨n, hn, rfl⟩) (fun _ hr => hr) rfl rfl rfl rfl

/-! ### Springs that come and go -/

theorem isNode_delist : (w.delist i).isNode k ↔ w.isNode k := by
  simp [isNode_iff, delist, Node.detach]

theorem touching_delist :
    (w.delist i).touching k = (w.touching k).filter fun r => (w.spring r).id != some i := by
  show (w.graph.listed.filter _).filter _ = (w.graph.listed.filter _).filter _
  rw [List.filter_filter, List.filter_filter]
  exact List.filter_congr fun r _ => Bool.and_comm _ _

theorem onward_delist (h : w.Sound) (i : Id) : Onward w (w.delist i) where
  sound :=
    { h with
      nodes_ascend := List.pairwise_map.2 h.nodes_ascend
      node_lt := fun n hn => by
        obtain ⟨m, hm, rfl⟩ := List.mem_map.1 hn
        exact h.node_lt m hm
      springs_ascend := h.springs_ascend.sublist List.filter_sublist
      spring_lt := fun r hr => h.spring_lt r (List.mem_filter.1 hr).1
      listed_lt := fun r hr => h.listed_lt r (List.mem_filter.1 hr).1
      endpoints := fun r hr k hk => isNode_delist.2 (h.endpoints r (List.mem_filter.1 hr).1 k hk)
      attached := fun n hn => by
        obtain ⟨m, hm, rfl⟩ := List.mem_map.1 hn
        show (m.springIds.erase i).map some = ((w.delist i).touching (some m.id)).map _
        have hf : (fun j : Id => some j != some i) = fun j => j != i := by
          funext j
          rw [Bool.eq_iff_iff]
          simp
        calc (m.springIds.erase i).map some
            = (m.springIds.map some).filter (· != some i) := by
              rw [(h.springIds_nodup hm).erase_eq_filter, List.filter_map, Function.comp_def, hf]
          _ = _ := by
              rw [h.attached m hm, List.filter_map, touching_delist]
              rfl
      lines := fun c hc => by
        rw [isNode_delist, isNode_delist]
        exact h.lines c hc }
  later := .of_subset
    (fun n hn => by
      obtain ⟨m, hm, rfl⟩ := List.mem_map.1 hn
      exact ⟨m, hm, rfl⟩)
    (fun _ hr => (List.mem_filter.1 hr).1) rfl rfl rfl rfl

section

variable (hk : ∀ k ∈ (w.spring r).endpoints, w.isNode k)

omit [Scalar K] in
theorem id_attach (n : Node K) (p : Prop) [Decidable p] :
    (if p then n.attach i else n).id = n.id := by
  split
  · unfold Node.attach
    split <;> rfl
  · rfl

theorem position_enlist (w : Scene K) (r : Ref) (k : Key) :
    ((w.enlist r).node? k).map Node.position = (w.node? k).map Node.position := by
  have hid : (fun n : Node K => some n.id == k) ∘ (fun n : Node K =>
      if (w.spring r).contains (some n.id) then n.attach w.graph.nextSpring else n) =
        fun n => some n.id == k := by
    funext n
    rw [Function.comp_apply, id_attach]
  show ((w.graph.nodes.map _).find? _).map Node.position = _
  rw [List.find?_map, hid, Option.map_map]
  unfold node?
  congr 1
  funext n
  rw [Function.comp_apply]
  split
  · unfold Node.attach
    split <;> rfl
  · rfl

theorem isNode_enlist : (w.enlist r).isNode k ↔ w.isNode k := by
  simp [isNode_iff, enlist, id_attach]

theorem mem_listed_enlist {r' : Ref} :
    r' ∈ (w.enlist r).graph.listed ↔ r' ∈ w.graph.listed ∨ r' = r := by
  simp [enlist]

/-- A node is as it was, with the new id last where the spring is at it. -/
theorem exists_node_enlist (h : w.Sound) (hn : n ∈ (w.enlist r).graph.nodes) :
    ∃ m ∈ w.graph.nodes, n.id = m.id ∧ n.springIds = m.springIds ++
      if (w.spring r).contains (some m.id) then [w.graph.nextSpring] else [] := by
  obtain ⟨m, hm, rfl⟩ := List.mem_map.1 hn
  refine ⟨m, hm, id_attach _ _, ?_⟩
  split
  · -- the id is new, so it is not at the node yet
    have hnew : w.graph.nextSpring ∉ m.springIds := fun hi => by
      obtain ⟨r', hr', hid⟩ := (h.mem_springIds hm).1 hi
      obtain ⟨j, hj, hlt⟩ := h.spring_lt r' (mem_touching.1 hr').1
      exact Int.lt_irrefl _ (Option.some.inj (hid.symm.trans hj) ▸ hlt)
    simp [Node.attach, hnew]
  · simp

include hk

theorem spring_enlist_self :
    (w.enlist r).spring r = { w.spring r with id := some w.graph.nextSpring } :=
  Arena.get_set_self (lt_size_of_endpoints hk)

omit hk in
theorem spring_enlist_ne {r' : Ref} (h : r' ≠ r) : (w.enlist r).spring r' = w.spring r' :=
  Arena.get_set_ne h

omit hk in
theorem spring_enlist_listed (hr : r ∉ w.graph.listed) :
    ∀ r' ∈ w.graph.listed, (w.enlist r).spring r' = w.spring r' := fun _ hr' =>
  spring_enlist_ne fun e => hr (e ▸ hr')

theorem touching_enlist (hr : r ∉ w.graph.listed) :
    (w.enlist r).touching k = w.touching k ++ if (w.spring r).contains k then [r] else [] := by
  have hold := spring_enlist_listed hr
  have hnew : ((w.enlist r).spring r).contains k = (w.spring r).contains k := by
    rw [spring_enlist_self hk]
    rfl
  show (w.graph.listed ++ [r]).filter _ = _
  rw [List.filter_append, List.filter_congr fun r' hr' => by rw [hold r' hr']]
  congr 1
  simp only [List.filter_cons, List.filter_nil, hnew]

theorem sound_enlist (h : w.Sound) (hr : r ∉ w.graph.listed) : (w.enlist r).Sound := by
  have hself := spring_enlist_self hk
  have hold := spring_enlist_listed hr
  constructor
  case nodes_ascend =>
    refine List.pairwise_map.2 (h.nodes_ascend.imp fun hlt => ?_)
    rwa [id_attach, id_attach]
  case node_lt =>
    intro n hn
    obtain ⟨m, hm, hid, -⟩ := exists_node_enlist h hn
    rw [hid]
    exact h.node_lt m hm
  case springs_ascend =>
    refine List.pairwise_append.2 ⟨h.springs_ascend.imp_of_mem fun {a b} ha hb hlt => ?_,
      List.pairwise_singleton _ _, fun a ha b hb i j hi hj => ?_⟩
    · rwa [hold a ha, hold b hb]
    · rw [List.mem_singleton.1 hb, hself] at hj
      rw [hold a ha] at hi
      obtain ⟨i', hi', hlt⟩ := h.spring_lt a ha
      rw [Option.some.inj (hi.symm.trans hi'), ← Option.some.inj hj]
      exact hlt
  case spring_lt =>
    intro r' hr'
    rcases mem_listed_enlist.1 hr' with hr' | rfl
    · rw [hold r' hr']
      obtain ⟨i, hi, hlt⟩ := h.spring_lt r' hr'
      exact ⟨i, hi, Int.lt_trans hlt (Int.lt_succ _)⟩
    · rw [hself]
      exact ⟨_, rfl, Int.lt_succ _⟩
  case listed_lt =>
    intro r' hr'
    refine Nat.lt_of_lt_of_eq ?_ Arena.size_set.symm
    rcases mem_listed_enlist.1 hr' with hr' | rfl
    · exact h.listed_lt r' hr'
    · exact lt_size_of_endpoints hk
  case endpoints =>
    intro r' hr' k hk'
    rw [isNode_enlist]
    rcases mem_listed_enlist.1 hr' with hr' | rfl
    · rw [hold r' hr'] at hk'
      exact h.endpoints r' hr' k hk'
    · rw [hself] at hk'
      exact hk k hk'
  case attached =>
    intro n hn
    obtain ⟨m, hm, hid, hsp⟩ := exists_node_enlist h hn
    rw [hid, hsp, touching_enlist hk hr, List.map_append, List.map_append, h.attached m hm]
    congr 1
    · exact List.map_congr_left fun r' hr' => by rw [hold r' (mem_touching.1 hr').1]
    · split <;> simp [hself]
  case lines =>
    intro c hc
    rw [isNode_enlist, isNode_enlist]
    exact h.lines c hc
  case lines_apart => exact h.lines_apart

/-- A spring that is not listed yet, between nodes of the scene. -/
theorem onward_enlist (h : w.Sound) (hr : r ∉ w.graph.listed) : Onward w (w.enlist r) := by
  refine ⟨sound_enlist hk h hr, Int.le_refl _, Int.le_of_lt (Int.lt_succ _),
    Nat.le_of_eq Arena.size_set.symm, fun n hn _ => ?_, fun r' hr' i hi hlt => ?_, rfl⟩
  · obtain ⟨m, hm, hid, -⟩ := exists_node_enlist h hn
    exact ⟨m, hm, hid.symm⟩
  · rcases mem_listed_enlist.1 hr' with hr' | rfl
    · rw [spring_enlist_listed hr r' hr'] at hi ⊢
      exact ⟨hr', hi, rfl, rfl⟩
    · rw [spring_enlist_self hk] at hi
      exact absurd (Option.some.inj hi ▸ hlt) (Int.lt_irrefl _)

end

end Linkage.Scene
