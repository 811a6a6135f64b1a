import Linkage.Proofs.Scene.Bounds
import Linkage.Sketch.Basic

/-!
# Sound sketches

`Sketch.Sound` says how quantities and springs fit together: every quantity owns the springs that
its kind has, no spring id has two owners, an owned id names no spring or one of the owner's making
(`Quantity.Made`), and references are to declared quantities.

The order of the quantities is no part of it; that ids ascend is said by `Sketch.Ordered`, and that
declared quantities have no nodes to spare by `Sketch.Bare`.
-/

namespace Linkage

variable {K : Type}

namespace Quantity

variable {q : Quantity K} {i n : Id} {k : Key} {s s' : Spring K}

/-- What a declared quantity owns: one spring, or one for each captive. -/
def Proper (q : Quantity K) : Prop :=
  match q.kind with
  | .distance | .angle _ => (∃ i, q.springIds = [i]) ∧ q.captives = []
  | .rail => q.springIds = q.captives.map Prod.snd ∧ (q.captives.map Prod.fst).Nodup ∧
      ∀ c ∈ q.captives, c.1 ≠ q.a ∧ c.1 ≠ q.b
  | .unknown | .lacking .. => False

/-- A spring as the quantity makes them, of the id `i`: between its first two nodes, or from the
rail to the captive. -/
def Made (q : Quantity K) (i : Id) (s : Spring K) : Prop :=
  match q.kind with
  | .distance | .angle _ => s.kind = .distance ∧ s.endpoints = [some q.a, some q.b]
  | .rail => s.kind = .rail ∧ ∃ c, (c, i) ∈ q.captives ∧ s.endpoints = [some c]
  | .unknown | .lacking .. => False

theorem proper_rail (h : q.kind = .rail) :
    q.Proper ↔ q.springIds = q.captives.map Prod.snd ∧ (q.captives.map Prod.fst).Nodup ∧
      ∀ c ∈ q.captives, c.1 ≠ q.a ∧ c.1 ≠ q.b := by
  rw [Proper, h]

theorem made_rail (h : q.kind = .rail) :
    q.Made i s ↔ s.kind = .rail ∧ ∃ c, (c, i) ∈ q.captives ∧ s.endpoints = [some c] := by
  rw [Made, h]

/-- Only a rail has captives. -/
theorem Proper.rail_of_mem (h : q.Proper) {c : Id × Id} (hc : c ∈ q.captives) :
    q.kind = .rail := by
  unfold Proper at h
  split at h
  · rw [h.2] at hc
    cases hc
  · rw [h.2] at hc
    cases hc
  · assumption
  · exact h.elim
  · exact h.elim

theorem eq_of_singletons {l m : List Id} (hl : ∃ i, l = [i]) (hm : ∃ i, m = [i])
    (h : ∀ i ∈ m, i ∈ l) : m = l := by
  obtain ⟨i, rfl⟩ := hl
  obtain ⟨j, rfl⟩ := hm
  rw [List.mem_singleton.1 (h j (List.mem_singleton_self j))]

/-- What is left of the springs of a proper quantity goes by its kind and its captives. -/
theorem Proper.springIds_eq {q' : Quantity K} (h : q.Proper) (h' : q'.Proper)
    (hk : q'.kind = q.kind) (hs : ∀ i ∈ q'.springIds, i ∈ q.springIds) :
    q'.springIds = if q.kind = .rail then q'.captives.map Prod.snd else q.springIds := by
  unfold Proper at h h'
  rw [hk] at h'
  cases e : q.kind with
  | distance =>
    rw [e] at h h'
    exact eq_of_singletons h.1 h'.1 hs
  | angle p =>
    rw [e] at h h'
    exact eq_of_singletons h.1 h'.1 hs
  | rail =>
    rw [e] at h'
    exact h'.1
  | unknown =>
    rw [e] at h
    exact h.elim
  | lacking name nodes =>
    rw [e] at h
    exact h.elim

/-- What is left of a proper quantity goes by its captives and bounds. -/
theorem Proper.eq_of_captives {q' q'' : Quantity K} (h : q.Proper) (h' : q'.Proper)
    (h'' : q''.Proper)
    (hk' : ∃ captives springIds lower upper, q' =
      { q with captives := captives, springIds := springIds, lower := lower, upper := upper })
    (hk'' : ∃ captives springIds lower upper, q'' =
      { q with captives := captives, springIds := springIds, lower := lower, upper := upper })
    (hs' : ∀ i ∈ q'.springIds, i ∈ q.springIds) (hs'' : ∀ i ∈ q''.springIds, i ∈ q.springIds)
    (hc : q'.captives = q''.captives) (hlo : q'.lower = q''.lower) (hhi : q'.upper = q''.upper) :
    q' = q'' := by
  obtain ⟨cs, is, lo, hi, rfl⟩ := hk'
  obtain ⟨cs', is', lo', hi', rfl⟩ := hk''
  have hids := h.springIds_eq h' rfl hs'
  have hids' := h.springIds_eq h'' rfl hs''
  cases hc
  cases hlo
  cases hhi
  have hsame : is = is' := hids.trans hids'.symm
  rw [hsame]

theorem Made.congr (h : q.Made i s) (hk : s'.kind = s.kind) (he : s'.endpoints = s.endpoints) :
    q.Made i s' := by
  unfold Made at h ⊢
  rwa [hk, he]

/-! ### Nodes and captives -/

theorem isOver_eq_false_iff : q.isOver k = false ↔ ∀ i ∈ q.nodeIds, some i ≠ k := by
  simp [isOver]

theorem springHolding?_eq_some (h : q.springHolding? k = some i) :
    ∃ c, k = some c ∧ (c, i) ∈ q.captives := by
  obtain ⟨c, hc, rfl⟩ := Option.map_eq_some_iff.1 h
  have hk : some c.1 = k := by simpa using List.find?_some hc
  exact ⟨c.1, hk.symm, List.mem_of_find?_eq_some hc⟩

theorem springHolding?_eq_none (h : q.springHolding? (some n) = none) :
    ∀ c ∈ q.captives, c.1 ≠ n := by
  simpa [Quantity.springHolding?] using h

end Quantity

namespace Sketch

variable {w t : Sketch K} {k : Key} {r s : Ref} {i : Id}

/-! ### Look-ups -/

theorem of_quantityRef?_eq_some (h : w.quantityRef? k = some r) :
    r ∈ w.declared ∧ some (w.quantity r).id = k :=
  ⟨List.mem_of_find?_eq_some h, by simpa using List.find?_some h⟩

theorem quantityRef?_eq_none_iff :
    w.quantityRef? k = none ↔ ∀ r ∈ w.declared, some (w.quantity r).id ≠ k := by
  simp [quantityRef?]

/-- A spring id of a declared quantity. -/
def Owns (w : Sketch K) (r : Ref) (i : Id) : Prop :=
  r ∈ w.declared ∧ i ∈ (w.quantity r).springIds

/-- The same quantities in another order. -/
def relist (w : Sketch K) (l : List Ref) : Sketch K := { w with declared := l }

/-- A bound that is no reference, or one to a declared quantity. -/
def Backed (w : Sketch K) (b : Option (Limit K)) : Prop :=
  ∀ i, b = some (.reference i) → ∃ r ∈ w.declared, (w.quantity r).id = i

/-! ### The invariant -/

variable [Scalar K]

structure Sound (w : Sketch K) : Prop where
  scene : w.toScene.Sound
  declared_lt : ∀ r ∈ w.declared, r < w.quantities.size
  ids_nodup : (w.declared.map fun r => (w.quantity r).id).Nodup
  id_lt : ∀ r ∈ w.declared, (w.quantity r).id < w.nextQuantity
  proper : ∀ r ∈ w.declared, (w.quantity r).Proper
  springIds_nodup : ∀ r ∈ w.declared, (w.quantity r).springIds.Nodup
  owner_unique : ∀ r s i, w.Owns r i → w.Owns s i → r = s
  owned_lt : ∀ r i, w.Owns r i → i < w.graph.nextSpring
  made : ∀ r i, w.Owns r i → ∀ s, w.springRef? (some i) = some s →
    (w.quantity r).Made i (w.spring s)
  lower : ∀ r ∈ w.declared, w.Backed (w.quantity r).lower
  upper : ∀ r ∈ w.declared, w.Backed (w.quantity r).upper

/-- The ids of the declared quantities ascend. -/
def Ordered (w : Sketch K) : Prop :=
  w.declared.Pairwise fun r s => (w.quantity r).id < (w.quantity s).id

/-- No declared quantity is over a node that its kind has no use for. -/
def Bare (w : Sketch K) : Prop := ∀ r ∈ w.declared, (w.quantity r).others = []

namespace Sound

theorem declared_nodup (h : w.Sound) : w.declared.Nodup := h.ids_nodup.of_map

theorem captives_nodup (h : w.Sound) (hr : r ∈ w.declared) :
    ((w.quantity r).captives.map Prod.snd).Nodup := by
  have hq := h.proper r hr
  cases hc : (w.quantity r).captives with
  | nil => exact List.nodup_nil
  | cons c cs =>
    have hk := hq.rail_of_mem (c := c) (by simp [hc])
    rw [← hc, ← ((Quantity.proper_rail hk).1 hq).1]
    exact h.springIds_nodup r hr

/-- No two declared quantities have one id. -/
theorem eq_of_id_eq (h : w.Sound) (hr : r ∈ w.declared) (hs : s ∈ w.declared)
    (e : (w.quantity r).id = (w.quantity s).id) : r = s :=
  List.inj_on_of_nodup_map h.ids_nodup hr hs e

theorem quantityRef?_iff (h : w.Sound) :
    w.quantityRef? k = some r ↔ r ∈ w.declared ∧ some (w.quantity r).id = k := by
  refine ⟨of_quantityRef?_eq_some, fun ⟨hr, hk⟩ => ?_⟩
  cases e : w.quantityRef? k with
  | none => exact absurd hk (quantityRef?_eq_none_iff.1 e r hr)
  | some s =>
    obtain ⟨hs, hk'⟩ := of_quantityRef?_eq_some e
    rw [h.eq_of_id_eq hs hr (Option.some.inj (hk'.trans hk.symm))]

theorem quantityRef?_id (h : w.Sound) (hr : r ∈ w.declared) :
    w.quantityRef? (some (w.quantity r).id) = some r :=
  h.quantityRef?_iff.2 ⟨hr, rfl⟩

/-- The spring of a captive holds it if it is there. -/
theorem captive_made {n : Id} (h : w.Sound) (hr : r ∈ w.declared)
    (hc : (n, i) ∈ (w.quantity r).captives) (hs : w.springRef? (some i) = some s) :
    (w.spring s).kind = .rail ∧ (w.spring s).endpoints = [some n] := by
  have hp := h.proper r hr
  have hk := hp.rail_of_mem hc
  have howns : w.Owns r i := by
    refine ⟨hr, ?_⟩
    rw [((Quantity.proper_rail hk).1 hp).1]
    exact List.mem_map.2 ⟨_, hc, rfl⟩
  obtain ⟨hkind, n', hc', hends⟩ := (Quantity.made_rail hk).1 (h.made r i howns s hs)
  have hsame : (n', i) = (n, i) := List.inj_on_of_nodup_map (h.captives_nodup hr) hc' hc rfl
  cases hsame
  exact ⟨hkind, hends⟩

/-- The quantities may be listed in any order. -/
theorem relist (h : w.Sound) {l : List Ref} (hl : l.Perm w.declared) : (w.relist l).Sound where
  scene := h.scene
  declared_lt r hr := h.declared_lt r (hl.mem_iff.1 hr)
  ids_nodup := (hl.map _).nodup_iff.2 h.ids_nodup
  id_lt r hr := h.id_lt r (hl.mem_iff.1 hr)
  proper r hr := h.proper r (hl.mem_iff.1 hr)
  springIds_nodup r hr := h.springIds_nodup r (hl.mem_iff.1 hr)
  owner_unique r s i hr hs :=
    h.owner_unique r s i ⟨hl.mem_iff.1 hr.1, hr.2⟩ ⟨hl.mem_iff.1 hs.1, hs.2⟩
  owned_lt r i hr := h.owned_lt r i ⟨hl.mem_iff.1 hr.1, hr.2⟩
  made r i hr := h.made r i ⟨hl.mem_iff.1 hr.1, hr.2⟩
  lower r hr i hi := by
    obtain ⟨s, hs, hid⟩ := h.lower r (hl.mem_iff.1 hr) i hi
    exact ⟨s, hl.mem_iff.2 hs, hid⟩
  upper r hr i hi := by
    obtain ⟨s, hs, hid⟩ := h.upper r (hl.mem_iff.1 hr) i hi
    exact ⟨s, hl.mem_iff.2 hs, hid⟩

end Sound

/-- A sketch with nothing in it, whatever springs and quantities there are elsewhere. -/
theorem sound_empty (c : Config K) (a : Arena (Spring K)) (b : Arena (Quantity K)) :
    Sound { springs := a, graph := { config := c }, quantities := b } := by
  constructor
  case scene => exact Scene.sound_empty c a
  all_goals simp [Owns]

omit [Scalar K] in
theorem ordered_empty (c : Config K) (a : Arena (Spring K)) (b : Arena (Quantity K)) :
    Ordered { springs := a, graph := { config := c }, quantities := b } :=
  List.Pairwise.nil

omit [Scalar K] in
theorem bare_empty (c : Config K) (a : Arena (Spring K)) (b : Arena (Quantity K)) :
    Bare { springs := a, graph := { config := c }, quantities := b } :=
  fun _ hr => absurd hr List.not_mem_nil

end Sketch

end Linkage
