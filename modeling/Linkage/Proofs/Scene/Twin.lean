import Linkage.Proofs.Abreast
import Linkage.Proofs.Refusal

/-!
# Scenes whose springs go by other names

Springs go by references and by ids, and both are counted on. `Scene.Twin f P w t` says that `t` is
the scene `w` where springs go by the names that `f` gives them. No operation looks at a name but
to compare it, so that the same operation on both leaves twins again: they cannot be told apart by
where their nodes are and how these move.

A spring that is not listed may go by an id that means nothing to the scene. Only listed springs and
those of `P` are called alike.
-/

namespace Linkage

open Act

/-- Other references and other ids for springs; no two springs get the same. -/
structure Naming where
  ref : Ref → Ref
  id : Id → Id
  ref_inj : Function.Injective ref
  id_inj : Function.Injective id

def Naming.key (f : Naming) (k : Key) : Key := k.map f.id

theorem Naming.key_beq (f : Naming) (k l : Key) : (f.key k == f.key l) = (k == l) := by
  rw [Bool.eq_iff_iff, beq_iff_eq, beq_iff_eq]
  exact (Option.map_injective f.id_inj).eq_iff

variable {K : Type} {f : Naming} {P P' : Ref → Prop}

/-! ### Nodes and graphs -/

def Node.under (f : Naming) (n : Node K) : Node K := { n with springIds := n.springIds.map f.id }

theorem Node.attach_under (n : Node K) (i : Id) :
    (n.under f).attach (f.id i) = (n.attach i).under f := by
  unfold attach under
  simp only [List.mem_map_of_injective f.id_inj]
  split <;> simp

theorem Node.detach_under (n : Node K) (i : Id) :
    (n.under f).detach (f.id i) = (n.detach i).under f := by
  unfold detach under
  rw [List.map_erase f.id_inj]

theorem Spring.id_of_commutes {g : Spring K → Spring K}
    (hg : ∀ s k, g { s with id := k } = { g s with id := k }) (s : Spring K) : (g s).id = s.id :=
  (congrArg Spring.id (hg s s.id) :)

def Graph.under (f : Naming) (g : Graph K) : Graph K :=
  { g with
    nodes := g.nodes.map (·.under f)
    listed := g.listed.map f.ref
    nextSpring := f.id g.nextSpring }

namespace Scene

variable [Scalar K] {w t : Scene K} {r : Ref} {k : Key} {i : Id}

structure Twin (f : Naming) (P : Ref → Prop) (w t : Scene K) : Prop where
  graph : t.graph = w.graph.under f
  fresh : ∀ j, f.ref (w.springs.size + j) = t.springs.size + j
  next : ∀ j : Nat, f.id (w.graph.nextSpring + j) = f.id w.graph.nextSpring + j
  spring : ∀ r, ∃ k, t.spring (f.ref r) = { w.spring r with id := k }
  id : ∀ r, r ∈ w.graph.listed ∨ P r → (t.spring (f.ref r)).id = f.key (w.spring r).id

namespace Twin

/-- More springs may be remembered by what they are called now. -/
theorem know (h : Twin f P w t)
    (hP : ∀ r, P' r → (t.spring (f.ref r)).id = f.key (w.spring r).id) : Twin f P' w t :=
  { h with id := fun r hr => hr.elim (fun hr => h.id r (.inl hr)) (hP r) }

theorem forget (h : Twin f P w t) (hP : ∀ r, P' r → r ∈ w.graph.listed ∨ P r) : Twin f P' w t :=
  h.know fun r hr => h.id r (hP r hr)

/-! ### Look-ups -/

theorem config (h : Twin f P w t) : t.graph.config = w.graph.config := by
  rw [h.graph]
  rfl

theorem nextSpring (h : Twin f P w t) : t.graph.nextSpring = f.id w.graph.nextSpring := by
  rw [h.graph]
  rfl

theorem node? (h : Twin f P w t) (k : Key) : t.node? k = (w.node? k).map (·.under f) := by
  unfold Scene.node?
  rw [h.graph]
  exact List.find?_map ..

theorem isNode (h : Twin f P w t) (k : Key) : t.isNode k = w.isNode k := by
  rw [Scene.isNode, h.node?, Option.isSome_map]
  rfl

/-- Nodes are in the same places. -/
theorem positions (h : Twin f P w t) (k : Key) :
    (t.node? k).map Node.position = (w.node? k).map Node.position := by
  rw [h.node?, Option.map_map]
  rfl

theorem position (h : Twin f P w t) (k : Key) : t.position k = w.position k := by
  unfold Scene.position
  rw [h.node?]
  cases w.node? k <;> rfl

theorem ends (h : Twin f P w t) (s : Spring K) : t.ends s = w.ends s := by
  unfold Scene.ends
  simp only [h.position]

/-- What does not depend on the id of a spring. -/
theorem field {α : Type} {g : Spring K → α} (h : Twin f P w t)
    (hg : ∀ s k, g { s with id := k } = g s) (r : Ref) :
    g (t.spring (f.ref r)) = g (w.spring r) := by
  obtain ⟨k, hk⟩ := h.spring r
  rw [hk, hg]

theorem find_listed (h : Twin f P w t) {l : List Ref} (hl : ∀ r ∈ l, r ∈ w.graph.listed) (k : Key) :
    (l.map f.ref).find? (fun r => (t.spring r).id == f.key k) =
      (l.find? fun r => (w.spring r).id == k).map f.ref := by
  rw [List.find?_map]
  congr 1
  refine List.find?_congr fun r hr => ?_
  rw [Function.comp_apply, h.id r (.inl (hl r hr)), f.key_beq]

theorem springRef? (h : Twin f P w t) (k : Key) :
    t.springRef? (f.key k) = (w.springRef? k).map f.ref := by
  unfold Scene.springRef?
  rw [h.graph]
  exact h.find_listed (fun _ hr => hr) k

theorem mem_listed (h : Twin f P w t) : f.ref r ∈ t.graph.listed ↔ r ∈ w.graph.listed := by
  rw [h.graph]
  exact List.mem_map_of_injective f.ref_inj

theorem touching (h : Twin f P w t) (k : Key) : t.touching k = (w.touching k).map f.ref := by
  unfold Scene.touching
  rw [h.graph]
  show (w.graph.listed.map f.ref).filter _ = _
  rw [List.filter_map]
  congr 1
  exact List.filter_congr fun r _ => h.field (g := (·.contains k)) (fun _ _ => rfl) r

/-- Under an id the scenes find the same spring, but for its own id. -/
theorem springOf (h : Twin f P w t) (i : Id) :
    (w.springOf i = none ∧ t.springOf (f.id i) = none) ∨
      ∃ r, w.springOf i = some (w.spring r) ∧ t.springOf (f.id i) = some (t.spring (f.ref r)) := by
  have hfind : ∀ (w : Scene K) i, w.springOf i =
      (w.graph.listed.reverse.find? fun r => (w.spring r).id == some i).map w.spring := by
    intro w i
    unfold Scene.springOf members
    rw [← List.map_reverse, List.find?_map]
    rfl
  have hlisted := h.find_listed (l := w.graph.listed.reverse) (by simp) (some i)
  rw [hfind, hfind, h.graph]
  show _ ∧ ((w.graph.listed.map f.ref).reverse.find? fun r => (t.spring r).id == f.key (some i)).map
    t.spring = none ∨ ∃ r, _ ∧ ((w.graph.listed.map f.ref).reverse.find? fun r =>
      (t.spring r).id == f.key (some i)).map t.spring = some (t.spring (f.ref r))
  rw [← List.map_reverse, hlisted]
  cases w.graph.listed.reverse.find? fun r => (w.spring r).id == some i with
  | none => exact .inl ⟨rfl, rfl⟩
  | some r => exact .inr ⟨r, rfl, rfl⟩

/-! ### Changes of springs -/

theorem ref_lt (h : Twin f P w t) : f.ref r < t.springs.size ↔ r < w.springs.size := by
  constructor
  · intro hr
    by_contra hge
    obtain ⟨j, rfl⟩ := Nat.exists_eq_add_of_le (Nat.not_lt.1 hge)
    rw [h.fresh] at hr
    exact Nat.not_lt.2 (Nat.le_add_right _ _) hr
  · intro hr
    by_contra hge
    obtain ⟨j, hj⟩ := Nat.exists_eq_add_of_le (Nat.not_lt.1 hge)
    rw [f.ref_inj (hj.trans (h.fresh j).symm)] at hr
    exact Nat.not_lt.2 (Nat.le_add_right _ _) hr

theorem setSpring (h : Twin f P w t) {s s' : Spring K} (hs : ∃ k, s' = { s with id := k })
    (hid : r ∈ w.graph.listed ∨ P r → s'.id = f.key s.id) :
    Twin f P (w.setSpring r s) (t.setSpring (f.ref r) s') := by
  by_cases hr : r < w.springs.size
  · have hr' := h.ref_lt.2 hr
    refine ⟨h.graph, fun j => ?_, h.next, fun r' => ?_, fun r' hr' => ?_⟩
    · show f.ref ((w.springs.set r s).size + j) = (t.springs.set _ s').size + j
      rw [Arena.size_set, Arena.size_set]
      exact h.fresh j
    · by_cases e : r' = r
      · rw [e, spring_setSpring_self hr', spring_setSpring_self hr]
        exact hs
      · rw [spring_setSpring_ne (f.ref_inj.ne e), spring_setSpring_ne e]
        exact h.spring r'
    · by_cases e : r' = r
      · rw [e] at hr' ⊢
        rw [spring_setSpring_self (h.ref_lt.2 hr), spring_setSpring_self hr]
        exact hid hr'
      · rw [spring_setSpring_ne (f.ref_inj.ne e), spring_setSpring_ne e]
        exact h.id r' hr'
  · rw [setSpring_of_size_le (Nat.not_lt.1 hr),
      setSpring_of_size_le (Nat.not_lt.1 (mt h.ref_lt.1 hr))]
    exact h

theorem changeSpring (h : Twin f P w t) {g : Spring K → Spring K}
    (hg : ∀ s k, g { s with id := k } = { g s with id := k }) (r : Ref) :
    Twin f P (w.changeSpring r g) (t.changeSpring (f.ref r) g) := by
  obtain ⟨k, hk⟩ := h.spring r
  refine h.setSpring ⟨k, by rw [hk, hg]⟩ fun hr => ?_
  rw [Spring.id_of_commutes hg, Spring.id_of_commutes hg]
  exact h.id r hr

theorem makeSpring (h : Twin f P w t) {s : Spring K} (hs : s.id = none) :
    Twin f P (w.makeSpring s) (t.makeSpring s) := by
  have hnew : f.ref w.springs.size = t.springs.size := h.fresh 0
  have hget : ∀ r, ((w.makeSpring s).spring r = w.spring r ∧
      (t.makeSpring s).spring (f.ref r) = t.spring (f.ref r)) ∨
      ((w.makeSpring s).spring r = s ∧ (t.makeSpring s).spring (f.ref r) = s) := fun r => by
    rcases Nat.lt_trichotomy r w.springs.size with hr | rfl | hr
    · exact .inl ⟨Arena.get_alloc_of_lt hr, Arena.get_alloc_of_lt (h.ref_lt.2 hr)⟩
    · rw [hnew]
      exact .inr ⟨Arena.get_alloc_self, Arena.get_alloc_self⟩
    · -- there is no such spring, be one made or not
      have hr' : t.springs.size ≤ f.ref r := Nat.not_lt.1 (mt h.ref_lt.1 (Nat.not_lt.2 hr.le))
      have hne : t.springs.size ≠ f.ref r := fun e => by
        rw [← hnew] at e
        exact hr.ne (f.ref_inj e)
      refine .inl ⟨?_, ?_⟩ <;> refine (Arena.get_of_size_le ?_).trans (Arena.get_of_size_le ?_).symm
      · rw [Scene.makeSpring, Arena.size_alloc]
        exact hr
      · exact hr.le
      · rw [Scene.makeSpring, Arena.size_alloc]
        exact Nat.lt_of_le_of_ne hr' hne
      · exact hr'
  refine ⟨h.graph, fun j => ?_, h.next, fun r => ?_, fun r hr => ?_⟩
  · show f.ref ((w.springs.alloc s).size + j) = (t.springs.alloc s).size + j
    rw [Arena.size_alloc, Arena.size_alloc, Nat.add_assoc, Nat.add_assoc]
    exact h.fresh (1 + j)
  · rcases hget r with ⟨e, e'⟩ | ⟨e, e'⟩ <;> rw [e, e']
    · exact h.spring r
    · exact ⟨s.id, rfl⟩
  · rcases hget r with ⟨e, e'⟩ | ⟨e, e'⟩ <;> rw [e, e']
    · exact h.id r hr
    · rw [hs]
      rfl

/-! ### Changes of the graph -/

/-- Other graphs over the same springs. -/
theorem withGraph (h : Twin f P w t) {g g' : Graph K} (hg : g' = g.under f)
    (hn : ∃ j : Nat, g.nextSpring = w.graph.nextSpring + j)
    (hid : ∀ r ∈ g.listed, (t.spring (f.ref r)).id = f.key (w.spring r).id) :
    Twin f P { w with graph := g } { t with graph := g' } := by
  refine ⟨hg, h.fresh, fun j => ?_, h.spring, fun r hr => ?_⟩
  · obtain ⟨m, hm⟩ := hn
    show f.id (g.nextSpring + j) = f.id g.nextSpring + j
    rw [hm, h.next m, Int.add_assoc, Int.add_assoc, ← Int.natCast_add, h.next]
  · exact hr.elim (hid r) fun hr => h.id r (.inr hr)

/-- No spring is listed newly. -/
theorem regraph (h : Twin f P w t) {g g' : Graph K} (hg : g' = g.under f)
    (hn : g.nextSpring = w.graph.nextSpring) (hl : ∀ r ∈ g.listed, r ∈ w.graph.listed) :
    Twin f P { w with graph := g } { t with graph := g' } :=
  h.withGraph hg ⟨0, by simp [hn]⟩ fun r hr => h.id r (.inl (hl r hr))

theorem mapNodes (h : Twin f P w t) {g g' : Node K → Node K}
    (hg : ∀ n, g' (n.under f) = (g n).under f) : Twin f P (w.mapNodes g) (t.mapNodes g') := by
  refine h.regraph ?_ rfl fun _ hr => hr
  rw [h.graph]
  simp [Graph.under, hg]

theorem changeNode (h : Twin f P w t) {g : Node K → Node K}
    (hg : ∀ n, g (n.under f) = (g n).under f) (i : Id) :
    Twin f P (w.changeNode i g) (t.changeNode i g) := by
  refine h.mapNodes fun n => ?_
  show (if n.id = i then g (n.under f) else n.under f) = _
  split <;> simp [hg]

theorem insertNode (h : Twin f P w t) (p : Point K) :
    Twin f P (w.insertNode p) (t.insertNode p) := by
  refine h.regraph ?_ rfl fun _ hr => hr
  rw [h.graph]
  simp [Graph.under, Node.under, Node.new]

theorem eraseNode (h : Twin f P w t) (k : Key) : Twin f P (w.eraseNode k) (t.eraseNode k) := by
  refine h.regraph ?_ rfl fun _ hr => hr
  rw [h.graph]
  simp only [Graph.under, List.filter_map]
  rfl

theorem insertConnection (h : Twin f P w t) (c : Connection) :
    Twin f P (w.insertConnection c) (t.insertConnection c) := by
  refine h.regraph ?_ rfl fun _ hr => hr
  rw [h.graph]
  rfl

theorem eraseConnection (h : Twin f P w t) (k l : Key) :
    Twin f P (w.eraseConnection k l) (t.eraseConnection k l) := by
  refine h.regraph ?_ rfl fun _ hr => hr
  rw [h.graph]
  rfl

theorem enlist (h : Twin f P w t) (r : Ref) : Twin f P (w.enlist r) (t.enlist (f.ref r)) := by
  obtain ⟨k, hk⟩ := h.spring r
  have hset : Twin f P
      (w.setSpring r { w.spring r with id := some w.graph.nextSpring })
      (t.setSpring (f.ref r) { t.spring (f.ref r) with id := some t.graph.nextSpring }) :=
    h.setSpring ⟨some t.graph.nextSpring, by rw [hk]⟩ fun _ => congrArg some h.nextSpring
  refine hset.withGraph ?_ ⟨1, rfl⟩ fun r' hr' => ?_
  · have hcontains : ∀ k, (t.spring (f.ref r)).contains k = (w.spring r).contains k := fun k =>
      h.field (g := (·.contains k)) (fun _ _ => rfl) r
    simp only [h.graph, Graph.under, List.map_map, List.map_append, List.map_cons, List.map_nil]
    congr 1
    · refine List.map_congr_left fun n _ => ?_
      simp only [Function.comp_apply, hcontains]
      rw [Node.attach_under]
      show (if (w.spring r).contains (some n.id) then _ else n.under f) = _
      split <;> rfl
    · exact (h.next 1).symm
  · rcases List.mem_append.1 hr' with hr' | hr'
    · exact hset.id r' (.inl hr')
    · rw [List.mem_singleton.1 hr']
      by_cases hr : r < w.springs.size
      · rw [spring_setSpring_self (h.ref_lt.2 hr), spring_setSpring_self hr, h.nextSpring]
        rfl
      · have hr' := mt h.ref_lt.1 hr
        have hnone : ∀ (v : Scene K) r s, ¬ r < v.springs.size →
            ((v.setSpring r s).spring r).id = none := fun v r s hr => by
          rw [setSpring_of_size_le (Nat.not_lt.1 hr), Scene.spring,
            Arena.get_of_size_le (Nat.not_lt.1 hr)]
          rfl
        rw [hnone _ _ _ hr, hnone _ _ _ hr']
        rfl

theorem delist (h : Twin f P w t) (i : Id) : Twin f P (w.delist i) (t.delist (f.id i)) := by
  refine h.regraph ?_ rfl fun _ hr => List.mem_of_mem_filter hr
  rw [h.graph]
  simp only [Graph.under, List.filter_map, List.map_map]
  congr 1
  · exact List.map_congr_left fun n _ => Node.detach_under n i
  · congr 1
    refine List.filter_congr fun r hr => ?_
    rw [Function.comp_apply, h.id r (.inl hr)]
    exact congrArg (!·) (f.key_beq _ (some i))

end Twin

end Scene

end Linkage
