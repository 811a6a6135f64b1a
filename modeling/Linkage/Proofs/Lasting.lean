import Linkage.Proofs.Refusal
import Linkage.Proofs.Scene.Footprint
import Mathlib.Order.RelIso.Basic

/-!
# What lasts of a spring

An operation lists no spring that was there before, and changes nothing of the listed ones but
bounds, points and strains, unless it is done to that very spring. What it lists newly it has made
itself, with the constants that the settings have for it. `Scene.Lasting S E w t` says this of all
springs but those in `S`; it asks nothing of the scene.

The relation is a preorder, so that an action respects it if its parts do (`Act.Respects`). There is
one lemma for each operation on a scene, on a sketch and on a bench.
-/

namespace Linkage.Act

variable {K σ τ α β : Type} {R : σ → σ → Prop} {x : Act K σ α} {f : α → Act K σ β}

/-- Whatever the action starts from and however it ends, it leaves something in this relation. -/
def Respects (R : σ → σ → Prop) (x : Act K σ α) : Prop := ∀ s, x.wp (fun _ t => R s t) s

namespace Respects

theorem ite {p : Prop} [Decidable p] {y : Act K σ α} (hx : x.Respects R) (hy : y.Respects R) :
    (if p then x else y).Respects R := by
  split
  · exact hx
  · exact hy

variable [IsPreorder σ R]

theorem of_look (h : ∀ s, x.wp (fun _ t => t = s) s) : x.Respects R := fun s =>
  (h s).mono fun _ t e => by
    rw [e]
    exact refl_of R s

theorem pure (a : α) : (Pure.pure a : Act K σ α).Respects R := of_look fun _ => rfl

theorem fail (e : Failure K) : (Act.fail e : Act K σ α).Respects R := of_look fun _ => rfl

theorem ofExcept (r : Except (Failure K) α) : (Act.ofExcept r : Act K σ α).Respects R :=
  of_look fun _ => rfl

theorem read : (Act.read : Act K σ σ).Respects R := of_look fun _ => rfl

theorem report (e : Event K) : (Act.report e : Act K σ Unit).Respects R := of_look fun _ => rfl

theorem bind (hx : x.Respects R) (hf : ∀ a, (f a).Respects R) : (x >>= f).Respects R := fun s =>
  wp_bind_keep (hx s) fun a t ht => (hf a t).mono fun _ _ => trans_of R ht

/-- What would follow the failure does not matter. -/
theorem guarded {p : Prop} [Decidable p] {e : Failure K} {g : β → Act K σ α} (hx : x.Respects R) :
    (if p then Act.fail e >>= g else x).Respects R :=
  .ite (fun s => refl_of R s) hx

theorem forEach {g : β → Act K σ Unit} {l : List β} (h : ∀ b, (g b).Respects R) :
    (Act.forEach g l).Respects R := fun s =>
  wp_forEach (refl_of R s) fun b _ t ht => (h b t).mono fun _ _ => trans_of R ht

end Respects

end Linkage.Act

namespace Linkage.Scene

open Act

variable {K : Type} [Scalar K] {w t u : Scene K} {r : Ref} {S E : Ref → Prop}

/-- A listed spring that was there before and is not in `S` was listed before. What it is has
lasted, but that it may have expired if it is in `E`. -/
structure Lasting (S E : Ref → Prop) (w t : Scene K) : Prop where
  size_le : w.springs.size ≤ t.springs.size
  config : t.graph.config = w.graph.config
  id : ∀ r < w.springs.size, ¬ S r → (t.spring r).id = (w.spring r).id
  listed : ∀ r ∈ t.graph.listed, r < w.springs.size → ¬ S r → r ∈ w.graph.listed ∧
    (t.spring r).kind = (w.spring r).kind ∧ (t.spring r).endpoints = (w.spring r).endpoints ∧
      (t.spring r).constants = (w.spring r).constants ∧
      ((t.spring r).expired = (w.spring r).expired ∨ E r ∧ (t.spring r).expired)
  made : ∀ r ∈ t.graph.listed, r ∉ w.graph.listed → ¬ S r →
    r < t.springs.size ∧ (t.spring r).Supplied w.graph.config

namespace Lasting

theorem refl (w : Scene K) : Lasting S E w w where
  size_le := Nat.le_refl _
  config := rfl
  id _ _ _ := rfl
  listed _ hr _ _ := ⟨hr, rfl, rfl, rfl, .inl rfl⟩
  made _ hr hnew := absurd hr hnew

theorem trans (h : Lasting S E w t) (h' : Lasting S E t u) : Lasting S E w u where
  size_le := Nat.le_trans h.size_le h'.size_le
  config := h'.config.trans h.config
  id r hr hS := (h'.id r (Nat.lt_of_lt_of_le hr h.size_le) hS).trans (h.id r hr hS)
  listed r hru hr hS := by
    obtain ⟨hrt, hk', he', hc', hx'⟩ := h'.listed r hru (Nat.lt_of_lt_of_le hr h.size_le) hS
    obtain ⟨hrw, hk, he, hc, hx⟩ := h.listed r hrt hr hS
    refine ⟨hrw, hk'.trans hk, he'.trans he, hc'.trans hc, ?_⟩
    rcases hx' with hx' | hx'
    · rw [hx']
      exact hx
    · exact .inr hx'
  made r hru hnew hS := by
    by_cases hrt : r ∈ t.graph.listed
    · obtain ⟨hlt, hmade⟩ := h.made r hrt hnew hS
      obtain ⟨-, hk, -, hc, -⟩ := h'.listed r hru hlt hS
      exact ⟨Nat.lt_of_lt_of_le hlt h'.size_le, hmade.congr hk hc⟩
    · exact h.config ▸ h'.made r hru hrt hS

theorem mono {E' : Ref → Prop} (h : Lasting S E w t) (hE : ∀ r, E r → E' r) : Lasting S E' w t :=
  { h with
    listed := fun r hrt hr hS => by
      obtain ⟨hrw, hk, he, hc, hx⟩ := h.listed r hrt hr hS
      exact ⟨hrw, hk, he, hc, hx.imp_right (And.imp_left (hE r))⟩ }

instance : IsPreorder (Scene K) (Lasting S E) where
  refl := refl
  trans _ _ _ := trans

/-- No spring changes and none is listed. -/
theorem of_springs (hs : t.springs = w.springs) (hc : t.graph.config = w.graph.config)
    (hl : ∀ r ∈ t.graph.listed, r ∈ w.graph.listed) : Lasting S E w t := by
  have e : ∀ r, t.spring r = w.spring r := fun r => congrArg (·.get r) hs
  refine ⟨Nat.le_of_eq (by rw [hs]), hc, fun r _ _ => by rw [e], fun r hr _ _ => ?_,
    fun r hr hnew => absurd (hl r hr) hnew⟩
  rw [e]
  exact ⟨hl r hr, rfl, rfl, rfl, .inl rfl⟩

theorem setSpring {s : Spring K} (hid : s.id = (w.spring r).id)
    (hk : s.kind = (w.spring r).kind) (he : s.endpoints = (w.spring r).endpoints)
    (hc : s.constants = (w.spring r).constants)
    (hx : s.expired = (w.spring r).expired ∨ E r ∧ s.expired) :
    Lasting S E w (w.setSpring r s) := by
  refine ⟨Nat.le_of_eq Arena.size_set.symm, rfl, fun r' _ _ => ?_, fun r' hr' _ _ => ⟨hr', ?_⟩,
    fun _ hr' hnew => absurd hr' hnew⟩
  · rcases spring_setSpring w r s r' with e | ⟨rfl, e⟩ <;> rw [e]
    exact hid
  · rcases spring_setSpring w r s r' with e | ⟨rfl, e⟩ <;> rw [e]
    · exact ⟨rfl, rfl, rfl, .inl rfl⟩
    · exact ⟨hk, he, hc, hx⟩

/-- A spring of `S` may become any other one, and so may one that is not listed if its id stays. -/
theorem setSpring_of_notMem {s : Spring K} (hid : ¬ S r → s.id = (w.spring r).id)
    (hr : r ∈ w.graph.listed → S r) : Lasting S E w (w.setSpring r s) := by
  refine ⟨Nat.le_of_eq Arena.size_set.symm, rfl, fun r' _ hS => ?_, fun r' hr' _ hS => ⟨hr', ?_⟩,
    fun _ hr' hnew => absurd hr' hnew⟩
  · rcases spring_setSpring w r s r' with e | ⟨rfl, e⟩ <;> rw [e]
    exact hid hS
  · have hne : r' ≠ r := by
      rintro rfl
      exact hS (hr hr')
    rw [spring_setSpring_ne hne]
    exact ⟨rfl, rfl, rfl, .inl rfl⟩

theorem makeSpring (w : Scene K) (s : Spring K) : Lasting S E w (w.makeSpring s) := by
  have e : ∀ r < w.springs.size, (w.makeSpring s).spring r = w.spring r := fun r hr =>
    Arena.get_alloc_of_lt hr
  refine ⟨by simp [Scene.makeSpring], rfl, fun r hr _ => by rw [e r hr], fun r hrl hr _ => ?_,
    fun _ hr hnew => absurd hr hnew⟩
  rw [e r hr]
  exact ⟨hrl, rfl, rfl, rfl, .inl rfl⟩

theorem enlist (hS : S r) : Lasting S E w (w.enlist r) := by
  have e : ∀ r', ¬ S r' → (w.enlist r).spring r' = w.spring r' := fun r' hS' =>
    spring_enlist_ne fun e => hS' (e ▸ hS)
  have hold : ∀ r' ∈ (w.enlist r).graph.listed, ¬ S r' → r' ∈ w.graph.listed := fun r' hr' hS' =>
    (mem_listed_enlist.1 hr').resolve_right fun e => hS' (e ▸ hS)
  refine ⟨Nat.le_of_eq Arena.size_set.symm, rfl, fun r' _ hS' => by rw [e r' hS'],
    fun r' hr' _ hS' => ?_, fun r' hr' hnew hS' => absurd (hold r' hr' hS') hnew⟩
  rw [e r' hS']
  exact ⟨hold r' hr' hS', rfl, rfl, rfl, .inl rfl⟩

/-- A new object is none of those that were there before. -/
theorem enter {s : Spring K} (hs : s.Supplied w.graph.config) :
    Lasting S E w ((w.makeSpring s).enlist w.springs.fresh) := by
  have hnew := (makeSpring (S := (· = w.springs.fresh)) (E := E) w s).trans (enlist rfl)
  have hlt : w.springs.fresh < (w.makeSpring s).springs.size :=
    Nat.lt_of_lt_of_eq (Nat.lt_succ_self _) Arena.size_alloc.symm
  refine ⟨hnew.size_le, rfl, fun r hr _ => hnew.id r hr (Nat.ne_of_lt hr),
    fun r hrl hr _ => hnew.listed r hrl hr (Nat.ne_of_lt hr), fun r hrl hrw _ => ?_⟩
  obtain rfl := (mem_listed_enlist.1 hrl).resolve_left hrw
  refine ⟨Nat.lt_of_lt_of_eq hlt Arena.size_set.symm, ?_⟩
  have hself : ((w.makeSpring s).enlist w.springs.fresh).spring w.springs.fresh =
      { (w.makeSpring s).spring w.springs.fresh with id := some w.graph.nextSpring } :=
    spring_setSpring_self hlt
  rw [hself, spring_makeSpring]
  exact hs

end Lasting

theorem Struck.lasting (h : Struck w t) : Lasting S E w t :=
  .of_springs h.springs h.config h.listed.subset

theorem Strained.lasting (h : Strained w t) : Lasting S E w t := by
  have hlisted : t.graph.listed = w.graph.listed := h.alike.listed
  refine ⟨Nat.le_of_eq h.size.symm, h.alike.config, fun r _ _ => by rw [h.spring r],
    fun r hr _ _ => ?_, fun r hr hnew => absurd (hlisted ▸ hr) hnew⟩
  rw [h.spring r]
  exact ⟨hlisted ▸ hr, rfl, rfl, rfl, .inl rfl⟩

/-! ### Operations on a scene -/

theorem enterNew_lasting (w : Scene K) (c : SpringSpec K) (hc : c.Supplied w.graph.config) :
    (enterNew c).wp (fun _ t => Lasting S E w t) w := by
  refine (enterNew_spec w c).mono fun o t ht => ?_
  cases o with
  | error e =>
    rw [show t = w from ht]
    exact .refl w
  | ok r =>
    obtain ⟨rfl, s, hs, -, rfl⟩ := ht
    obtain ⟨_, _, -, -, rfl⟩ := SpringSpec.build_eq_ok_iff.1 hs
    exact .enter hc

theorem follow_lasting (k : Key) (spot : Option (Coords K)) :
    (follow k spot).Respects (Lasting S E) :=
  fun w => follow_keep (enterNew_lasting w) k spot

theorem deleteSpring_lasting (k : Key) : (deleteSpring k : Act K _ _).Respects (Lasting S E) :=
  fun w => (deleteSpring_struck w k).mono fun _ _ => Struck.lasting

theorem deleteListed_lasting (r : Ref) : (deleteListed r : Act K _ _).Respects (Lasting S E) :=
  .bind .read fun _ => deleteSpring_lasting _

theorem deleteNode_lasting (k : Key) : (deleteNode k : Act K _ _).Respects (Lasting S E) := by
  unfold deleteNode
  refine .bind (.report _) fun _ => .bind .read fun w => .ite ?_ (.report _)
  refine .bind (.forEach deleteListed_lasting) fun _ => .bind (fun w => ?_) fun _ => .report _
  exact .of_springs rfl rfl fun _ => id

theorem boundSpring_lasting (r : Ref) (lower upper : Option (Number K)) :
    (boundSpring r lower upper).Respects (Lasting S E) :=
  fun _ => .setSpring rfl rfl rfl rfl (.inl rfl)

omit [Scalar K] in
/-- Only the point is another one. -/
theorem exists_movePoint {s s' : Spring K} {p : Except (Failure K) (Point K)}
    (h : s.movePoint p = .ok s') : ∃ q, s' = { s with a := .point q } := by
  unfold Spring.movePoint at h
  split at h
  · cases h
  · obtain ⟨q, -, rfl⟩ := map_eq_ok_iff.1 h
    exact ⟨q, rfl⟩

theorem expire_lasting (hr : E r) : (expire r : Act K _ _).Respects (Lasting S E) :=
  fun _ => .setSpring rfl rfl rfl rfl (.inr ⟨hr, rfl⟩)

theorem movePoint_lasting (r : Ref) (spot : Coords K) :
    (movePoint r spot).Respects (Lasting S E) := fun w => by
  unfold movePoint
  rw [wp_bind, wp_read, next_ok, wp_bind, wp_ofExcept]
  cases hm : (w.spring r).movePoint spot.toPoint with
  | error e => exact .refl w
  | ok s =>
    obtain ⟨-, -, he, -⟩ := movePoint_keeps hm
    obtain ⟨q, rfl⟩ := exists_movePoint hm
    exact .setSpring rfl rfl he rfl (.inl rfl)

theorem enterSpring_lasting (hr : S r) : (enterSpring r : Act K _ _).Respects (Lasting S E) := by
  have hlist : ∀ (ks : List Key) (i : Id), (do
      needNodes ks
      change (·.enlist r)
      report (.springAdded i) : Act K (Scene K) Unit).Respects (Lasting S E) := fun ks i =>
    .bind (.of_look fun w => (needNodes_spec w ks).mono fun _ _ ht => ht.1) fun _ =>
      .bind (fun _ => .enlist hr) fun _ => .report _
  unfold enterSpring
  refine .bind .read fun w => .bind (.report _) fun _ => ?_
  split
  · exact .ite (.bind (.fail _) fun _ => hlist _ _) (hlist _ _)
  · exact hlist _ _

theorem advance_lasting (dt : K) : (advance dt).Respects (Lasting S E) := fun w => by
  refine advance_keep (I := Strained w) (R := fun _ => True) dt (.refl w)
    (fun t => Strained.lasting) ?relaxes ?steps ?sweeps
  case relaxes => exact (relax_strained w _).mono fun _ t ht => ⟨ht, fun _ => trivial⟩
  case steps =>
    intro dh t ht _
    exact (substep_strained t _ dh).mono fun _ t' ht' => ⟨ht.trans ht', fun _ => trivial⟩
  case sweeps =>
    intro t ht _
    have hsweep : (sweep : Act K (Scene K) Unit).Respects (Lasting S E) :=
      .bind .read fun _ => .forEach deleteListed_lasting
    exact (hsweep t).mono fun _ _ => ht.lasting.trans

namespace Op

/-- The spring is listed by hand, here or where it gets another id. -/
def Lists : Op K → Scene K → Ref → Prop
  | enterSpring r', _, r => r' = r
  | elsewhere r' s, w, r => r' = r ∧ s.id ≠ (w.spring r).id
  | _, _, _ => False

/-- The spring is expired by hand. -/
def Expires : Op K → Ref → Prop
  | expire r', r => r' = r
  | _, _ => False

theorem step_lasting (o : Op K) (w : Scene K) : Lasting (o.Lists w) o.Expires w (o.step w) := by
  show o.act.wp (fun _ t => Lasting (o.Lists w) o.Expires w t) w
  cases o with
  | addNode spot =>
    exact wp_discard (addNode_keep (.refl w) (fun _ => .of_springs rfl rfl fun _ => id) spot)
  | deleteNode k => exact deleteNode_lasting k w
  | putNode k spot =>
    exact putNode_keep (.refl w) (fun _ _ => .of_springs rfl rfl fun _ => id) k spot
  | connect k l =>
    exact wp_discard (connect_keep (.refl w) (fun _ _ _ _ => .of_springs rfl rfl fun _ => id) k l)
  | disconnect k l => exact .of_springs rfl rfl fun _ => id
  | makeSpring c =>
    unfold act
    exact wp_bind_check (I := Lasting _ _ w) rfl (.refl w) fun s => .makeSpring w s
  | enterSpring r => exact enterSpring_lasting rfl w
  | pin k spot => exact wp_discard (pin_keep (.refl w) (enterNew_lasting w) k spot)
  | tie a b lower upper => exact wp_discard (tie_keep (enterNew_lasting w) a b lower upper)
  | follow k spot => exact wp_discard (follow_lasting k spot w)
  | deleteSpring k => exact deleteSpring_lasting k w
  | movePoint r spot => exact movePoint_lasting r spot w
  | boundSpring r lower upper => exact boundSpring_lasting r lower upper w
  | expire r => exact expire_lasting rfl w
  | advance dt => exact advance_lasting dt w
  | elsewhere r s =>
    unfold act
    rw [wp_bind, wp_read, next_ok, wp_ite]
    split
    · exact .refl w
    · next hr =>
      refine .setSpring_of_notMem (fun hS => ?_) fun hr' => absurd hr' hr
      by_contra hid
      exact hS ⟨rfl, hid⟩

end Op

end Linkage.Scene

namespace Linkage.Quantity

open Act Scene

variable {K : Type} [Scalar K] {S E : Ref → Prop}

theorem lead_lasting (q : Quantity K) (a b : Point K) (clamped : Bool) (c i : Id) :
    (q.lead a b clamped c i).Respects (Lasting S E) := fun w => by
  unfold lead
  rw [wp_bind, wp_read, next_ok]
  cases w.springRef? (some i) with
  | none => exact .refl w
  | some r =>
    refine wp_bind_check (I := Lasting S E w) rfl (.refl w) fun p => ?_
    rw [wp_bind, wp_ofExcept]
    cases hm : (w.spring r).movePoint (.ok (Rail.seat p a b clamped).1) with
    | error e => exact .refl w
    | ok s =>
      obtain ⟨-, -, he, -⟩ := movePoint_keeps hm
      obtain ⟨q, rfl⟩ := exists_movePoint hm
      exact .setSpring rfl rfl he rfl (.inl rfl)

theorem impose_lasting (q : Quantity K) (lower upper : Option (Number K)) (clamped : Bool) :
    (q.impose lower upper clamped).Respects (Lasting S E) := fun w => by
  refine impose_keep (.refl w) (fun _ lower upper => ?_) fun a b c i t ht => ?_
  · exact Respects.forEach (fun r => boundSpring_lasting r lower upper) w
  · exact (q.lead_lasting a b clamped c i t).mono fun _ _ => ht.trans

end Linkage.Quantity

namespace Linkage.Sketch

open Act

variable {K : Type} [Scalar K] {S E : Ref → Prop}

/-! ### Operations on a sketch -/

def Lasting (S E : Ref → Prop) (w t : Sketch K) : Prop := Scene.Lasting S E w.toScene t.toScene

namespace Lasting

instance : IsPreorder (Sketch K) (Lasting S E) where
  refl w := Scene.Lasting.refl w.toScene
  trans _ _ _ := Scene.Lasting.trans

theorem onScene {α : Type} {x : Act K (Scene K) α} (h : x.Respects (Scene.Lasting S E)) :
    x.onScene.Respects (Lasting S E) :=
  fun w => h w.toScene

/-- The quantities are nothing to the springs. -/
theorem change {f : Sketch K → Sketch K} (h : ∀ w, (f w).toScene = w.toScene) :
    (Act.change f : Act K _ _).Respects (Lasting S E) := fun w => by
  show Scene.Lasting S E w.toScene (f w).toScene
  rw [h]
  exact .refl _

end Lasting

theorem needQuantity_lasting (k : Key) : (needQuantity k : Act K _ _).Respects (Lasting S E) := by
  refine .of_look fun w => ?_
  rw [wp_needQuantity]
  split <;> rfl

theorem needOwnNode_lasting (k : Key) : (needOwnNode k : Act K _ _).Respects (Lasting S E) :=
  .of_look fun w => needOwnNode_spec w k

theorem toBound_lasting (kind : QuantityKind) (arg : BoundArg Ref K) :
    (toBound kind arg).Respects (Lasting S E) :=
  .of_look fun w => (toBound_spec w kind arg).mono fun _ _ ht => ht.1

theorem shownBound_lasting (arg : BoundArg Ref K) : (shownBound arg).Respects (Lasting S E) :=
  .of_look fun w => shownBound_spec w arg

theorem valueOf_lasting (b : Option (Limit K)) : (valueOf b).Respects (Lasting S E) :=
  .of_look fun w => valueOf_spec w b

theorem refreshOne_lasting (r : Ref) : (refreshOne r : Act K _ _).Respects (Lasting S E) :=
  .bind .read fun _ => .bind (valueOf_lasting _) fun lower => .bind (valueOf_lasting _)
    fun upper => Lasting.onScene (Quantity.impose_lasting _ lower upper _)

theorem enter_lasting (q : Quantity K) : (enter q).Respects (Lasting S E) :=
  .bind .read fun _ => .bind (Lasting.change fun _ => rfl) fun _ =>
    .bind (refreshOne_lasting _) fun _ => .bind (.report _) fun _ => .pure _

theorem own_lasting (kind : QuantityKind) (a b : Id) (lo hi : Option (Limit K)) (e : Event K) :
    (own kind a b lo hi e).Respects (Lasting S E) := by
  have hid : (nextId : Act K (Sketch K) Id).Respects (Lasting S E) :=
    .bind .read fun _ => .bind (Lasting.change fun _ => rfl) fun _ => .pure _
  have htie : (Scene.tie (some a) (some b) none none : Act K _ _).Respects (Scene.Lasting S E) :=
    fun w => Scene.tie_keep (Scene.enterNew_lasting w) _ _ _ _
  have hspring : (addSpringBetween a b : Act K _ _).Respects (Lasting S E) :=
    .bind .read fun _ => .bind (Lasting.onScene htie) fun _ => .pure _
  exact .bind hid fun i => .bind hspring fun s => .bind (.report _) fun _ => enter_lasting _

theorem declareDistance_lasting (a b : Key) (lower upper : BoundArg Ref K) :
    (declareDistance a b lower upper).Respects (Lasting S E) := by
  unfold declareDistance
  refine .bind (shownBound_lasting _) fun _ => .bind (shownBound_lasting _) fun _ => ?_
  refine .bind (.report _) fun _ => .bind (needOwnNode_lasting _) fun a => ?_
  refine .bind (needOwnNode_lasting _) fun b => .bind (toBound_lasting _ _) fun lo => ?_
  exact .bind (toBound_lasting _ _) fun hi => own_lasting .distance a b lo hi .distanceAdded

theorem declareAngle_lasting (a b pivot : Key) (lower upper : BoundArg Ref K) :
    (declareAngle a b pivot lower upper).Respects (Lasting S E) := by
  unfold declareAngle
  refine .bind (shownBound_lasting _) fun _ => .bind (shownBound_lasting _) fun _ => ?_
  refine .bind (.report _) fun _ => .bind (needOwnNode_lasting _) fun a => ?_
  refine .bind (needOwnNode_lasting _) fun b => .bind (needOwnNode_lasting _) fun p => ?_
  refine .guarded ?_
  refine .bind (toBound_lasting _ _) fun lo => .bind (toBound_lasting _ _) fun hi => ?_
  exact own_lasting (.angle p) a b lo hi .angleAdded

theorem hold_lasting (rail node : Key) : (hold rail node : Act K _ _).Respects (Lasting S E) := by
  unfold hold
  refine .bind (needQuantity_lasting _) fun r => .bind .read fun w => .guarded ?_
  refine .bind (needOwnNode_lasting _) fun n => .guarded (.ite (.pure _) ?_)
  refine .bind .read fun w => .bind (.ofExcept _) fun a => .bind (.ofExcept _) fun b => ?_
  refine .bind (.ofExcept _) fun p w => ?_
  rw [wp_bind, wp_onScene, Scene.wp_constants, next_ok]
  refine wp_bind_keep (Scene.enterNew_lasting w.toScene _ rfl) fun s t ht => ?_
  refine wp.mono (?_ : wp _ (fun _ u => Lasting S E t u) t) fun _ _ => Scene.Lasting.trans ht
  refine Respects.bind ?_ (fun _ => .bind ?_ fun _ => .report _) t
  · exact fun w => Scene.Lasting.setSpring (w := w.toScene) rfl rfl rfl rfl (.inl rfl)
  · exact Lasting.change fun _ => rfl

theorem needCaptives_lasting (a b : Id) (captives : List Key) :
    (needCaptives a b captives : Act K _ _).Respects (Lasting S E) :=
  .of_look fun w => needCaptives_spec w a b captives

theorem declareRail_lasting (a b : Key) (captives : List Key) :
    (declareRail a b captives : Act K _ _).Respects (Lasting S E) := by
  unfold declareRail
  refine .bind (.report _) fun _ => .bind (needOwnNode_lasting _) fun a => ?_
  refine .bind (needOwnNode_lasting _) fun b => .guarded ?_
  refine .bind (needCaptives_lasting _ _ _) fun _ => ?_
  refine .bind (.bind .read fun _ => .bind (Lasting.change fun _ => rfl) fun _ => .pure _)
    fun i => ?_
  refine .bind (enter_lasting _) fun r => .bind (.forEach fun k => hold_lasting _ k) fun _ => ?_
  exact .bind (.report _) fun _ => .pure _

theorem release_lasting (rail node : Key) :
    (release rail node : Act K _ _).Respects (Lasting S E) := by
  unfold release
  refine .bind (needQuantity_lasting _) fun r => .bind .read fun w => ?_
  split
  · exact .pure _
  · exact .bind (Lasting.change fun _ => rfl) fun _ =>
      .bind (Lasting.onScene (Scene.deleteSpring_lasting _)) fun _ => .report _

theorem setLower_lasting (k : Key) (arg : BoundArg Ref K) :
    (setLower k arg).Respects (Lasting S E) :=
  .bind (needQuantity_lasting k) fun _ => .bind .read fun _ =>
    .bind (toBound_lasting _ arg) fun _ => Lasting.change fun _ => rfl

theorem setUpper_lasting (k : Key) (arg : BoundArg Ref K) :
    (setUpper k arg).Respects (Lasting S E) :=
  .bind (needQuantity_lasting k) fun _ => .bind .read fun _ =>
    .bind (toBound_lasting _ arg) fun _ => Lasting.change fun _ => rfl

theorem withdraw_lasting (k : Key) : (withdraw k : Act K _ _).Respects (Lasting S E) := by
  unfold withdraw
  refine .bind (.report _) fun _ => .bind .read fun w => ?_
  split
  · exact .report _
  · exact .bind (.forEach fun i => Lasting.onScene (Scene.deleteSpring_lasting _)) fun _ =>
      .bind (Lasting.change fun _ => rfl) fun _ => .bind (Lasting.change fun _ => rfl) fun _ =>
        .report _

theorem withdrawNode_lasting (k : Key) : (withdrawNode k : Act K _ _).Respects (Lasting S E) := by
  unfold withdrawNode
  refine .bind (.report _) fun _ => .bind .read fun w => .bind (.forEach fun r => ?_) fun _ =>
    .bind (Lasting.onScene (Scene.deleteNode_lasting k)) fun _ => .report _
  exact .bind .read fun _ =>
    .ite (withdraw_lasting _) (.ite (release_lasting _ _) (.pure _))

theorem prune_lasting : (prune : Act K _ _).Respects (Lasting S E) := by
  unfold prune
  refine .bind .read fun w => .forEach fun r => .bind .read fun w => .ite (.forEach fun c => ?_) ?_
  · exact .bind .read fun _ => .ite (.pure _) (release_lasting _ _)
  · exact .bind (.report _) fun _ => withdraw_lasting _

theorem readingOf_lasting (k : Key) : (readingOf k : Act K _ _).Respects (Lasting S E) :=
  .bind prune_lasting fun _ => .bind (needQuantity_lasting k) fun _ => .bind .read fun _ =>
    .ofExcept _

theorem valueNow_lasting (b : Option (Limit K)) : (valueNow b).Respects (Lasting S E) :=
  .bind prune_lasting fun _ => valueOf_lasting b

theorem refresh_lasting (dt : Option K) : (refresh dt).Respects (Lasting S E) := by
  unfold refresh
  refine .bind prune_lasting fun _ => .bind .read fun w => .bind (.forEach refreshOne_lasting)
    fun _ => ?_
  split
  · exact .pure _
  · exact Lasting.onScene (Scene.advance_lasting _)

namespace Op

def Lists : Op K → Sketch K → Ref → Prop
  | scene o, w, r => o.Lists w.toScene r
  | _, _, _ => False

def Expires : Op K → Ref → Prop
  | scene o, r => o.Expires r
  | _, _ => False

theorem step_lasting (o : Op K) (w : Sketch K) :
    Lasting (o.Lists w) o.Expires w (o.step w) := by
  have discard : ∀ {α : Type} {x : Act K (Sketch K) α},
      x.Respects (Lasting (o.Lists w) o.Expires) →
      (do let _ ← x : Act K (Sketch K) Unit).Respects (Lasting (o.Lists w) o.Expires) :=
    fun hx => .bind hx fun _ => .pure _
  cases o with
  | scene o => exact o.step_lasting w.toScene
  | declareDistance a b lower upper => exact discard (declareDistance_lasting a b lower upper) w
  | declareAngle a b pivot lower upper =>
    exact discard (declareAngle_lasting a b pivot lower upper) w
  | declareRail a b captives => exact discard (declareRail_lasting a b captives) w
  | hold rail node => exact hold_lasting rail node w
  | release rail node => exact release_lasting rail node w
  | setLower k arg => exact setLower_lasting k arg w
  | setUpper k arg => exact setUpper_lasting k arg w
  | readingOf k => exact discard (readingOf_lasting k) w
  | valueNow b => exact discard (valueNow_lasting b) w
  | withdraw k => exact withdraw_lasting k w
  | withdrawNode k => exact withdrawNode_lasting k w
  | refresh dt => exact refresh_lasting dt w
  | makeQuantity q => exact Scene.Lasting.refl w.toScene

end Op

end Linkage.Sketch

namespace Linkage.Bench

open Act

variable {K : Type} [Scalar K] {S E : Ref → Prop}

/-! ### Operations on a bench -/

def Lasting (S E : Ref → Prop) (w t : Bench K) : Prop := Scene.Lasting S E w.toScene t.toScene

namespace Lasting

instance : IsPreorder (Bench K) (Lasting S E) where
  refl w := Scene.Lasting.refl w.toScene
  trans _ _ _ := Scene.Lasting.trans

theorem onScene {α : Type} {x : Act K (Scene K) α} (h : x.Respects (Scene.Lasting S E)) :
    x.onScene.onSketch.Respects (Lasting S E) :=
  fun w => h w.toScene

/-- What the bench knows of a drag is nothing to the springs. -/
theorem change {f : Bench K → Bench K} (h : ∀ w, (f w).toScene = w.toScene) :
    (Act.change f : Act K _ _).Respects (Lasting S E) := fun w => by
  show Scene.Lasting S E w.toScene (f w).toScene
  rw [h]
  exact .refl _

end Lasting

theorem letGo_lasting (hE : ∀ r, E r) : (letGo : Act K _ _).Respects (Lasting S E) := by
  unfold letGo
  refine .bind .read fun w => ?_
  split
  · exact .pure _
  · exact .bind (Lasting.onScene (Scene.expire_lasting (hE _))) fun _ =>
      .bind (.report _) fun _ => Lasting.change fun _ => rfl

theorem grab_lasting (hE : ∀ r, E r) (k : Key) (spot : Option (Coords K)) :
    (grab k spot).Respects (Lasting S E) :=
  .bind (letGo_lasting hE) fun _ => .bind (Lasting.onScene (Scene.follow_lasting k spot)) fun _ =>
    .bind (Lasting.change fun _ => rfl) fun _ => .bind (.report _) fun _ => .pure _

theorem pullTo_lasting (spot : Coords K) : (pullTo spot).Respects (Lasting S E) := by
  unfold pullTo
  refine .bind .read fun w => ?_
  split
  · exact .pure _
  · exact Lasting.onScene (Scene.movePoint_lasting _ spot)

theorem cancel_lasting : (cancel : Act K _ _).Respects (Lasting S E) := by
  unfold cancel
  refine .bind .read fun w => ?_
  split
  · exact .pure _
  · exact .bind (Lasting.onScene (Scene.deleteListed_lasting _)) fun _ =>
      .bind (.report _) fun _ => Lasting.change fun _ => rfl

namespace Op

def Lists : Op K → Bench K → Ref → Prop
  | sketch o, w, r => o.Lists w.toSketch r
  | _, _, _ => False

/-- Any spring may expire. -/
theorem step_lasting (o : Op K) (w : Bench K) :
    Lasting (o.Lists w) (fun _ => True) w (o.step w) := by
  have hE : ∀ _ : Ref, True := fun _ => trivial
  cases o with
  | sketch o => exact (o.step_lasting w.toSketch).mono fun _ _ => trivial
  | frame dt => exact Sketch.refresh_lasting (some dt) w.toSketch
  | grab k spot => exact Respects.bind (grab_lasting hE k spot) (fun _ => .pure _) w
  | pullTo spot => exact pullTo_lasting spot w
  | letGo => exact letGo_lasting hE w
  | cancel => exact cancel_lasting w

end Op

end Linkage.Bench
