import Linkage.Proofs.Scene.Run

/-!
# What an operation writes of the springs

Springs are objects that other scenes may list too. `Scene.Footprint S w t` says that of those that
were there before only the ones in `S` may be under another id, of another kind or at other nodes;
and that nothing is listed newly that is no object. It asks nothing of the scene, so that it holds
whatever others have done to the springs (`Op.step_footprint`).

A scene that lists nothing of `S` is left as it was, but for strains, bounds and points
(`Footprint.alike`).
-/

namespace Linkage.Scene

open Act

variable {K : Type} [Scalar K] {w t u : Scene K} {k : Key} {r : Ref} {S : Ref → Prop}

structure Footprint (S : Ref → Prop) (w t : Scene K) : Prop where
  size_le : w.springs.size ≤ t.springs.size
  same : ∀ r < w.springs.size, ¬ S r → (t.spring r).id = (w.spring r).id ∧
    (t.spring r).kind = (w.spring r).kind ∧ (t.spring r).endpoints = (w.spring r).endpoints
  listed : ∀ r ∈ t.graph.listed, r ∈ w.graph.listed ∨ r < t.springs.size

namespace Footprint

theorem refl (w : Scene K) : Footprint S w w :=
  ⟨Nat.le_refl _, fun _ _ _ => ⟨rfl, rfl, rfl⟩, fun _ => .inl⟩

theorem trans (h : Footprint S w t) (h' : Footprint S t u) : Footprint S w u where
  size_le := Nat.le_trans h.size_le h'.size_le
  same r hr hS := by
    obtain ⟨hid, hk, he⟩ := h.same r hr hS
    obtain ⟨hid', hk', he'⟩ := h'.same r (Nat.lt_of_lt_of_le hr h.size_le) hS
    exact ⟨hid'.trans hid, hk'.trans hk, he'.trans he⟩
  listed r hr := by
    rcases h'.listed r hr with hr | hr
    · exact (h.listed r hr).imp_right fun hr => Nat.lt_of_lt_of_le hr h'.size_le
    · exact .inr hr

theorem of_springs (hs : t.springs = w.springs)
    (hl : ∀ r ∈ t.graph.listed, r ∈ w.graph.listed) : Footprint S w t := by
  refine ⟨Nat.le_of_eq (by rw [hs]), fun r _ _ => ?_, fun r hr => .inl (hl r hr)⟩
  have e : t.spring r = w.spring r := congrArg (·.get r) hs
  rw [e]
  exact ⟨rfl, rfl, rfl⟩

theorem setSpring {s : Spring K} (hid : s.id = (w.spring r).id) (hk : s.kind = (w.spring r).kind)
    (he : s.endpoints = (w.spring r).endpoints) : Footprint S w (w.setSpring r s) := by
  refine ⟨Nat.le_of_eq Arena.size_set.symm, fun r' _ _ => ?_, fun _ => .inl⟩
  rcases spring_setSpring w r s r' with e | ⟨rfl, e⟩ <;> rw [e]
  · exact ⟨rfl, rfl, rfl⟩
  · exact ⟨hid, hk, he⟩

theorem makeSpring (w : Scene K) (s : Spring K) : Footprint S w (w.makeSpring s) := by
  refine ⟨by simp [Scene.makeSpring], fun r hr _ => ?_, fun _ => .inl⟩
  have e : (w.makeSpring s).spring r = w.spring r := Arena.get_alloc_of_lt hr
  rw [e]
  exact ⟨rfl, rfl, rfl⟩

/-- A spring that is listed newly is under a new id. -/
theorem enlist (hr : r < w.springs.size) (hS : S r) : Footprint S w (w.enlist r) := by
  refine ⟨Nat.le_of_eq Arena.size_set.symm, fun r' _ hS' => ?_, fun r' hr' => ?_⟩
  · have hne : r' ≠ r := fun e => hS' (e ▸ hS)
    rw [spring_enlist_ne hne]
    exact ⟨rfl, rfl, rfl⟩
  · rcases mem_listed_enlist.1 hr' with hr' | rfl
    · exact .inl hr'
    · exact .inr (Nat.lt_of_lt_of_eq hr Arena.size_set.symm)

/-- A new object is none of those that were there before. -/
theorem enter (w : Scene K) (s : Spring K) :
    Footprint S w ((w.makeSpring s).enlist w.springs.fresh) := by
  have hlt : w.springs.fresh < (w.makeSpring s).springs.size :=
    Nat.lt_of_lt_of_eq (Nat.lt_succ_self _) Arena.size_alloc.symm
  have hnew := (makeSpring (S := (· = w.springs.fresh)) w s).trans (enlist hlt rfl)
  exact { hnew with same := fun r hr _ => hnew.same r hr (Nat.ne_of_lt hr) }

/-- Another scene over the same springs sees the same change. -/
theorem beside (h : Footprint S w t) {v : Scene K} (hv : v.springs = w.springs) :
    Footprint S v { v with springs := t.springs } := by
  have e : ∀ r, v.spring r = w.spring r := fun r => congrArg (·.get r) hv
  refine ⟨hv ▸ h.size_le, fun r hr hS => ?_, fun _ => .inl⟩
  rw [e]
  exact h.same r (hv ▸ hr) hS

theorem inArena (h : Footprint S w t) (hw : ∀ r ∈ w.graph.listed, r < w.springs.size) :
    ∀ r ∈ t.graph.listed, r < t.springs.size := by
  intro r hr
  rcases h.listed r hr with hr | hr
  · exact Nat.lt_of_lt_of_le (hw r hr) h.size_le
  · exact hr

/-- Where nothing of `S` is listed, nothing but strains, bounds and points may differ. -/
theorem alike (h : Footprint S w t) (hg : t.graph = w.graph)
    (hw : ∀ r ∈ w.graph.listed, r < w.springs.size) (hS : ∀ r ∈ w.graph.listed, ¬ S r) :
    Alike w t where
  nodes := by rw [hg]
  listed := by rw [hg]
  connections := by rw [hg]
  nextNode := by rw [hg]
  nextSpring := by rw [hg]
  size_le := h.size_le
  id r hr := (h.same r (hw r hr) (hS r hr)).1
  kind r hr := (h.same r (hw r hr) (hS r hr)).2.1
  endpoints r hr := (h.same r (hw r hr) (hS r hr)).2.2
  config := by rw [hg]

end Footprint

theorem Struck.footprint (h : Struck w t) : Footprint S w t :=
  .of_springs h.springs h.listed.subset

theorem Strained.footprint (h : Strained w t) : Footprint S w t where
  size_le := Nat.le_of_eq h.size.symm
  same r _ _ := by
    rw [h.spring r]
    exact ⟨rfl, rfl, rfl⟩
  listed r hr := .inl (h.alike.listed ▸ hr)

/-! ### Operations -/

theorem deleteSpring_struck (w : Scene K) (k : Key) :
    (deleteSpring k).wp (fun _ t => Struck w t) w := by
  unfold deleteSpring
  rw [wp_bind, wp_read, next_ok]
  split
  · exact struck_delist w _
  · exact .refl w

theorem forEach_deleteListed_struck (w : Scene K) (rs : List Ref) :
    (forEach deleteListed rs).wp (fun _ t => Struck w t) w := by
  refine wp_forEach (.refl w) fun r _ t ht => ?_
  unfold deleteListed
  rw [wp_bind, wp_read, next_ok]
  exact (deleteSpring_struck t _).mono fun _ _ => ht.trans

theorem deleteNode_footprint (w : Scene K) (k : Key) :
    (deleteNode k).wp (fun _ t => Footprint S w t) w := by
  unfold deleteNode
  rw [wp_bind, wp_report, next_ok, wp_bind, wp_read, next_ok, wp_ite]
  split
  · refine wp_bind_keep ((forEach_deleteListed_struck w _).mono fun _ _ => Struck.footprint)
      fun _ t ht => ?_
    exact ht.trans (.of_springs rfl fun _ => id)
  · exact .refl w

theorem enterSpring_footprint (w : Scene K) (r : Ref) :
    (enterSpring r).wp (fun _ t => Footprint (· = r) w t) w := by
  have htail : (needNodes (w.spring r).endpoints >>= fun _ => do
      change (·.enlist r)
      report (.springAdded w.graph.nextSpring)).wp (fun _ t => Footprint (· = r) w t) w := by
    rw [wp_bind]
    refine (needNodes_spec w _).mono fun o t => ?_
    rintro ⟨rfl, ho⟩
    cases o with
    | error e => exact .refl t
    | ok _ => exact .enlist (lt_size_of_endpoints (ho rfl)) rfl
  unfold enterSpring
  simp only [wp_bind, wp_read, wp_report, next_ok]
  cases (w.spring r).id with
  | none => exact htail
  | some i =>
    rw [wp_ite]
    split
    · exact .refl w
    · exact htail

theorem enterNew_footprint (w : Scene K) (c : SpringSpec K) :
    (enterNew c).wp (fun _ t => Footprint S w t) w := by
  refine (enterNew_spec w c).mono fun o t ht => ?_
  cases o with
  | error e =>
    rw [show t = w from ht]
    exact .refl w
  | ok r =>
    obtain ⟨rfl, s, -, -, rfl⟩ := ht
    exact .enter w s

theorem movePoint_footprint (w : Scene K) (r : Ref) (spot : Coords K) :
    (movePoint r spot).wp (fun _ t => Footprint S w t) w := by
  unfold movePoint
  rw [wp_bind, wp_read, next_ok, wp_bind, wp_ofExcept]
  cases hm : (w.spring r).movePoint spot.toPoint with
  | error e => exact .refl w
  | ok s =>
    obtain ⟨hid, hk, he, -⟩ := movePoint_keeps hm
    exact .setSpring hid hk he

theorem advance_footprint (w : Scene K) (dt : K) :
    (advance dt).wp (fun _ t => Footprint S w t) w := by
  refine advance_keep (I := Strained w) (R := fun _ => True) dt (.refl w)
    (fun t => Strained.footprint) ?relaxes ?steps ?sweeps
  case relaxes => exact (relax_strained w _).mono fun _ t ht => ⟨ht, fun _ => trivial⟩
  case steps =>
    intro dh t ht _
    exact (substep_strained t _ dh).mono fun _ t' ht' => ⟨ht.trans ht', fun _ => trivial⟩
  case sweeps =>
    intro t ht _
    unfold sweep
    rw [wp_bind, wp_read, next_ok]
    exact (forEach_deleteListed_struck t _).mono fun _ _ hst => ht.footprint.trans hst.footprint

namespace Op

/-- It is done to this scene, and not to a spring elsewhere. -/
def Here : Op K → Prop
  | elsewhere _ _ => False
  | _ => True

/-- The object that it lists. -/
def Enters : Op K → Ref → Prop
  | enterSpring r, r' => r' = r
  | _, _ => False

theorem step_footprint (o : Op K) (ho : o.Here) (w : Scene K) :
    Footprint o.Enters w (o.step w) := by
  show o.act.wp (fun _ t => Footprint o.Enters w t) w
  cases o with
  | addNode spot =>
    exact wp_discard (addNode_keep (.refl w) (fun _ => .of_springs rfl fun _ => id) spot)
  | deleteNode k => exact deleteNode_footprint w k
  | putNode k spot => exact putNode_keep (.refl w) (fun _ _ => .of_springs rfl fun _ => id) k spot
  | connect k l =>
    exact wp_discard (connect_keep (.refl w) (fun _ _ _ _ => .of_springs rfl fun _ => id) k l)
  | disconnect k l => exact .of_springs rfl fun _ => id
  | makeSpring c =>
    unfold act
    exact wp_bind_check (I := Footprint _ w) rfl (.refl w) fun s => .makeSpring w s
  | enterSpring r => exact enterSpring_footprint w r
  | pin k spot => exact wp_discard (pin_keep (.refl w) (fun c _ => enterNew_footprint w c) k spot)
  | tie a b lower upper =>
    exact wp_discard (tie_keep (fun c _ => enterNew_footprint w c) a b lower upper)
  | follow k spot => exact wp_discard (follow_keep (fun c _ => enterNew_footprint w c) k spot)
  | deleteSpring k => exact (deleteSpring_struck w k).mono fun _ _ => Struck.footprint
  | movePoint r spot => exact movePoint_footprint w r spot
  | boundSpring r lower upper => exact .setSpring rfl rfl rfl
  | expire r => exact .setSpring rfl rfl rfl
  | advance dt => exact advance_footprint w dt
  | elsewhere r s => exact ho.elim

end Op

end Linkage.Scene
