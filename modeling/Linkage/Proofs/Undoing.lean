import Linkage.Proofs.Railing
import Linkage.Proofs.Declare

/-!
# Declaring and withdrawing

What is declared is put at the end of every list: springs under new ids, a quantity under a new id.
Nothing that was there before can name it, so that to withdraw it right away leaves what was there
before (`Bench.withdrawn_after_run`).

`Scene.Added` says what springs at the end of the list are to a scene, `Scene.Restored` what is left
when they are struck out; `Sketch.Extended` and `Sketch.Restored` say so of a quantity that owns
them.
-/

namespace Linkage

namespace Scene

variable {K : Type} [Scalar K] {w t u : Scene K} {ids : List Id}

/-- The scene is as it was, with springs under new ids besides. -/
structure Added (w t : Scene K) (ids : List Id) : Prop where
  config : t.graph.config = w.graph.config
  connections : t.graph.connections = w.graph.connections
  nextNode : t.graph.nextNode = w.graph.nextNode
  places : (t.graph.nodes.map fun n => { n with springIds := [] }) =
    w.graph.nodes.map fun n => { n with springIds := [] }
  size_le : w.springs.size ≤ t.springs.size
  spring : ∀ r < w.springs.size, t.spring r = w.spring r
  listed : w.graph.listed.Sublist t.graph.listed
  new : ∀ r ∈ t.graph.listed, r ∈ w.graph.listed ∨ (t.spring r).id ∈ ids.map some
  fresh : ∀ i ∈ ids, w.graph.nextSpring ≤ i

/-- All that was there is there as it was; only ids were given out. -/
structure Restored (w t : Scene K) : Prop where
  graph : t.graph = { w.graph with nextSpring := t.graph.nextSpring }
  size_le : w.springs.size ≤ t.springs.size
  spring : ∀ r < w.springs.size, t.spring r = w.spring r

/-- The added springs change in place and keep their ids. -/
theorem Added.set (h : Added w t ids) (hg : u.graph = t.graph)
    (hsize : t.springs.size ≤ u.springs.size)
    (hspring : ∀ r < w.springs.size, u.spring r = t.spring r)
    (hid : ∀ r ∈ t.graph.listed, (u.spring r).id = (t.spring r).id) : Added w u ids where
  config := by rw [hg, h.config]
  connections := by rw [hg, h.connections]
  nextNode := by rw [hg, h.nextNode]
  places := by rw [hg, h.places]
  size_le := Nat.le_trans h.size_le hsize
  spring r hr := (hspring r hr).trans (h.spring r hr)
  listed := by rw [hg]; exact h.listed
  new r hr := by
    rw [hg] at hr
    rw [hid r hr]
    exact h.new r hr
  fresh := h.fresh

theorem places_enlist (w : Scene K) (r : Ref) :
    ((w.enlist r).graph.nodes.map fun n => { n with springIds := [] }) =
      w.graph.nodes.map fun n => { n with springIds := [] } := by
  show (w.graph.nodes.map _).map _ = _
  rw [List.map_map]
  refine List.map_congr_left fun n _ => ?_
  rw [Function.comp_apply]
  split
  · unfold Node.attach
    split <;> rfl
  · rfl

/-- One more spring is added. -/
theorem Entered.added {s : Spring K}
    (he : Entered w ((w.makeSpring s).enlist w.springs.fresh) s) :
    Added w ((w.makeSpring s).enlist w.springs.fresh) [w.graph.nextSpring] := by
  refine ⟨rfl, rfl, rfl, places_enlist _ _, he.onward.later.size_le, he.rest,
    List.sublist_append_left _ _, fun r hr => ?_, fun i hi => ?_⟩
  · rcases List.mem_append.1 hr with hr | hr
    · exact .inl hr
    · rw [List.mem_singleton.1 hr]
      refine .inr ?_
      rw [he.spring]
      simp
  · rw [List.mem_singleton.1 hi]

/-- Where the added springs are struck out again, everything is as before but for the next id. -/
theorem Added.restored (h : Added w t ids) (hw : w.Sound) (ht : t.Sound) (hu : Freed t u ids) :
    Restored w u := by
  have hspring : ∀ r < w.springs.size, u.spring r = w.spring r := fun r hr =>
    (hu.struck.spring r).trans (h.spring r hr)
  have hlisted : u.graph.listed = w.graph.listed := by
    refine Sketch.eq_of_sublist ht.listed_nodup hu.struck.listed h.listed fun r => ?_
    rw [hu.mem_listed ht]
    constructor
    · rintro ⟨hr, hid⟩
      exact (h.new r hr).resolve_right hid
    · intro hr
      refine ⟨h.listed.subset hr, fun hid => ?_⟩
      -- the ids from before are smaller than the new ones
      obtain ⟨i, hi, hlt⟩ := hw.spring_lt r hr
      rw [h.spring r (hw.listed_lt r hr), hi] at hid
      exact absurd hlt (Int.not_lt.2 (h.fresh i (by simpa using hid)))
  have hnodes : u.graph.nodes = w.graph.nodes :=
    hw.nodes_ext hu.onward.sound (fun r hr => hspring r (hw.listed_lt r hr)) hlisted
      (hu.struck.places.trans h.places)
  refine ⟨?_, Nat.le_trans h.size_le hu.onward.later.size_le, hspring⟩
  have hconfig := hu.struck.config.trans h.config
  have hconnections := hu.struck.connections.trans h.connections
  have hnext := hu.struck.nextNode.trans h.nextNode
  obtain ⟨springs, config, nodes, listed, connections, nextNode, nextSpring⟩ := u
  cases hconfig
  cases hnodes
  cases hlisted
  cases hconnections
  cases hnext
  rfl

end Scene

namespace Sketch

open Act

variable {K : Type} [Scalar K] {w t u : Sketch K} {r : Ref}

/-- There is one more quantity, and besides it there are only the springs that it owns. -/
structure Extended (w t : Sketch K) (r : Ref) : Prop where
  scene : Scene.Added w.toScene t.toScene (t.quantity r).springIds
  ref : w.quantities.size ≤ r
  declared : t.declared = w.declared ++ [r]
  size_le : w.quantities.size ≤ t.quantities.size
  quantity : ∀ s < w.quantities.size, t.quantity s = w.quantity s

/-- All that was there is there as it was; only ids were given out. -/
structure Restored (w t : Sketch K) : Prop where
  scene : Scene.Restored w.toScene t.toScene
  declared : t.declared = w.declared
  size_le : w.quantities.size ≤ t.quantities.size
  quantity : ∀ r < w.quantities.size, t.quantity r = w.quantity r

omit [Scalar K] in
/-- A bound that refers to something else stays. -/
theorem keepBound_eq_self {i : Id} {b : Option (Limit K)}
    (h : ∀ j, b = some (.reference j) → j ≠ i) : Quantity.keepBound (some i) b = b := by
  cases b with
  | none => rfl
  | some l =>
    refine if_neg fun e => ?_
    cases l with
    | literal n => cases e
    | reference j => exact h j rfl (Option.some.inj e)

/-- To withdraw what was declared last undoes it. -/
theorem Extended.withdraw (h : Extended w t r) (hw : w.Sound) (ht : t.Sound) :
    (withdraw (some (t.quantity r).id)).wp (fun o u => o = .ok () ∧ Restored w u) t := by
  have hr : r ∈ t.declared := by simp [h.declared]
  have hrw : r ∉ w.declared := fun hmem => absurd (hw.declared_lt r hmem) (Nat.not_lt.2 h.ref)
  have hname := ht.quantityRef?_id hr
  refine (withdraw_spec ht hname).mono fun o u => ?_
  rintro ⟨rfl, v, hv, rfl⟩
  have hsound : (t.withScene v).Sound := (shrunk_withScene ht hv.onward hv.struck.spared).sound
  have hret := quantity_retire hsound hname
  let u := (t.withScene v).retire r (some (t.quantity r).id)
  have hdeclared : u.declared = w.declared := by
    refine eq_of_sublist ht.declared_nodup List.filter_sublist
      (h.declared ▸ List.sublist_append_left _ _) fun s => ((hret s).1).trans ?_
    show s ∈ t.declared ∧ s ≠ r ↔ _
    rw [h.declared, List.mem_append, List.mem_singleton]
    exact ⟨fun ⟨hs, hne⟩ => hs.resolve_right hne, fun hs => ⟨.inl hs, fun e => hrw (e ▸ hs)⟩⟩
  -- what a quantity from before refers to was there before
  have hopen : ∀ b, w.Backed b → Quantity.keepBound (some (t.quantity r).id) b = b := by
    refine fun b hb => keepBound_eq_self fun i hi e => ?_
    obtain ⟨s, hs, hid⟩ := hb i hi
    have hst : s ∈ t.declared := by simp [h.declared, hs]
    have hsame : (t.quantity s).id = (t.quantity r).id := by
      rw [h.quantity s (hw.declared_lt s hs), hid, e]
    exact hrw (ht.eq_of_id_eq hst hr hsame ▸ hs)
  refine ⟨rfl, h.scene.restored hw.scene ht.scene hv, hdeclared, ?_, fun s hs => ?_⟩
  · show w.quantities.size ≤ (List.foldl _ (t.quantities.modify r _) _).size
    rw [size_foldl_modify, Arena.size_modify]
    exact h.size_le
  · have hst : t.quantity s = w.quantity s := h.quantity s hs
    by_cases hmem : s ∈ u.declared
    · have hsw : s ∈ w.declared := hdeclared ▸ hmem
      refine ((hret s).2.1 hmem).trans ?_
      show (t.quantity s).openReference _ = _
      rw [hst, Quantity.openReference, hopen _ (hw.lower s hsw), hopen _ (hw.upper s hsw)]
    · refine ((hret s).2.2 hmem fun e => ?_).trans hst
      exact absurd hs (Nat.not_lt.2 (e ▸ h.ref))

/-! ### What is declared extends the sketch -/

/-- What the call declares, if it succeeds, is all that there is besides. -/
def Extends (w : Sketch K) (o : Except (Failure K) Ref) (t : Sketch K) : Prop :=
  ∀ r, o = .ok r → Extended w t r

theorem extends_error (e : Failure K) : Extends w (.error e) t := fun _ h => by cases h

theorem own_extended (h : w.Sound) {kind : QuantityKind} {a b : Id} {lo hi : Option (Limit K)}
    (hargs : w.Admits kind a b lo hi) (e : Event K) :
    (own kind a b lo hi e).wp (Extends w) w := by
  refine wp_own_set h hargs e extends_error fun v s u hv hmade hu _ =>
    ⟨fun _ _ => extends_error _, fun v' hset => ?_⟩
  have hadded : Scene.Added w.toScene v [w.graph.nextSpring] := by
    subst hmade
    exact hv.added
  subst hu
  let q := w.between kind a b lo hi
  let t := (w.entering v q).withScene v'
  have hext : Extended w t w.quantities.fresh := by
    refine ⟨?_, Nat.le_refl _, rfl, ?_, fun s hs => Arena.get_alloc_of_lt hs⟩
    · rw [show t.quantity w.quantities.fresh = q from quantity_entering]
      refine hadded.set hset.graph (Nat.le_of_eq hset.size.symm) (fun r hr => ?_) hset.alike.id
      -- its own spring is the only one that is set
      refine hset.rest r fun i hi hname => ?_
      rw [List.mem_singleton.1 hi] at hname
      cases hname.symm.trans hv.named
      exact Nat.lt_irrefl _ hr
    · show w.quantities.size ≤ (w.quantities.alloc q).size
      rw [Arena.size_alloc]
      exact Nat.le_succ _
  rintro r ⟨⟩
  exact hext

theorem declareDistance_extended (h : w.Sound) (a b : Key) (lower upper : BoundArg Ref K) :
    (declareDistance a b lower upper).wp (Extends w) w :=
  wp_declareDistance extends_error fun _ _ _ _ _ e hargs _ _ => own_extended h hargs e

theorem declareAngle_extended (h : w.Sound) (a b pivot : Key) (lower upper : BoundArg Ref K) :
    (declareAngle a b pivot lower upper).wp (Extends w) w :=
  wp_declareAngle extends_error fun _ _ _ _ _ e hargs _ _ => own_extended h hargs e

/-! ### Rails -/

variable {c : Option (Constants K)} {a b n : Node K} {held : List (Node K)}

theorem spring_railed_of_lt {s : Ref} (hs : s < w.springs.size) :
    (w.railed c a b held).spring s = w.spring s := by
  induction held using List.reverseRecOn with
  | nil => rfl
  | append_singleton held n ih =>
    rw [← ih]
    show (w.railed c a b (held ++ [n])).springs.get s = _
    rw [springs_railed_concat]
    refine Arena.get_alloc_of_lt ?_
    rw [size_railed]
    exact Nat.lt_add_right _ hs

theorem spring_railed {p : Node K × Nat} (hp : p ∈ held.zipIdx) :
    (w.railed c a b held).spring (w.springs.size + p.2) =
      w.holder c a b p.1 (w.graph.nextSpring + p.2) := by
  induction held using List.reverseRecOn with
  | nil => cases hp
  | append_singleton held n ih =>
    show (w.railed c a b (held ++ [n])).springs.get _ = _
    rw [springs_railed_concat]
    rw [zipIdx_concat, List.mem_append, List.mem_singleton] at hp
    rcases hp with hp | rfl
    · have hlt : p.2 < held.length := List.snd_lt_of_mem_zipIdx hp
      rw [← ih hp]
      refine Arena.get_alloc_of_lt ?_
      rw [size_railed]
      exact Nat.add_lt_add_left hlt _
    · show Arena.get _ (w.springs.size + held.length) = _
      rw [← size_railed (w := w) (c := c) (a := a) (b := b)]
      exact Arena.get_alloc_self

theorem extended_railed : Extended w (w.railed c a b held) w.quantities.fresh := by
  refine ⟨?_, Nat.le_refl _, rfl, ?_, fun s hs => Arena.get_alloc_of_lt hs⟩
  · rw [quantity_railed]
    refine ⟨rfl, rfl, rfl, ?_, ?_, fun s => spring_railed_of_lt, List.sublist_append_left _ _,
      fun s hs => ?_, fun i hi => ?_⟩
    · show (w.graph.nodes.map _).map _ = _
      rw [List.map_map]
      rfl
    · show w.springs.size ≤ (w.railed c a b held).springs.size
      rw [size_railed]
      exact Nat.le_add_right _ _
    · refine (List.mem_append.1 hs).imp_right fun hs => ?_
      obtain ⟨p, hp, rfl⟩ := List.mem_map.1 hs
      rw [spring_railed hp]
      exact List.mem_map_of_mem (List.mem_map_of_mem hp)
    · obtain ⟨p, -, rfl⟩ := List.mem_map.1 hi
      exact Int.le_add_of_nonneg_right (Int.natCast_nonneg _)
  · show w.quantities.size ≤ (w.quantities.alloc _).size
    rw [Arena.size_alloc]
    exact Nat.le_succ _

/-- A node that the rail `r` from `a` to `b` does not hold yet. -/
structure Mounts (w : Sketch K) (rail k : Key) (r : Ref) (a b n : Node K) : Prop where
  named : w.quantityRef? rail = some r
  kind : (w.quantity r).kind = .rail
  first : w.node? (some (w.quantity r).a) = some a
  second : w.node? (some (w.quantity r).b) = some b
  node : w.node? k = some n
  aside : (w.quantity r).isOver (some n.id) = false
  free : (w.quantity r).springHolding? (some n.id) = none

/-- Where there is nothing to mount, nothing happens. -/
theorem hold_stays {rail k : Key} (hno : ∀ r a b n, ¬ w.Mounts rail k r a b n) :
    (hold rail k).wp (fun _ t => t = w) w := by
  unfold hold
  refine wp_bind_needQuantity rfl fun r hr => ?_
  rw [wp_bind, wp_read, next_ok, wp_ite]
  split
  · rfl
  next hk =>
  rw [wp_bind, wp_needOwnNode]
  cases hn : w.node? k with
  | none => rfl
  | some n =>
  have hnode : w.node? (some n.id) = some n := (Scene.of_node?_eq_some hn).2 ▸ hn
  simp only [next_ok]
  rw [wp_ite]
  split
  · rfl
  next hover =>
  rw [wp_ite]
  split
  · rfl
  next hfree =>
  rw [wp_bind, wp_read, next_ok]
  simp only [railEnd, hnode]
  cases ha : w.node? (some (w.quantity r).a) with
  | none => rfl
  | some a =>
  cases hb : w.node? (some (w.quantity r).b) with
  | none => rfl
  | some b =>
    exact absurd ⟨hr, Decidable.not_not.1 hk, ha, hb, hn, Bool.not_eq_true _ ▸ hover,
      Option.not_isSome_iff_eq_none.1 hfree⟩ (hno r a b n)

/-- The rule for a captive: nothing happens, or it is mounted. -/
theorem wp_hold {rail k : Key} {Q : Except (Failure K) Unit → Sketch K → Prop}
    (hstay : ∀ o, Q o w)
    (hmount : ∀ r a b n, w.Mounts rail k r a b n → Q (.ok ())
      (w.mount r (w.unplaced (w.graph.config.constants .rail) a b n) n.id
        (Rail.seat n.position a.position b.position w.clamped).2)) :
    (hold rail k).wp Q w := by
  by_cases hgo : ∃ r a b n, w.Mounts rail k r a b n
  · obtain ⟨r, a, b, n, hm⟩ := hgo
    refine (hold_mount hm.named hm.kind hm.node hm.aside hm.first hm.second hm.free rfl).mono
      fun o t => ?_
    rintro ⟨rfl, rfl⟩
    exact hmount r a b n hm
  · refine (hold_stays fun r a b n hm => hgo ⟨r, a, b, n, hm⟩).mono fun o t ht => ?_
    rw [ht]
    exact hstay o

/-- A rail is declared as `railed` says, for captives that are there. -/
theorem declareRail_railed (h : w.Sound) (ka kb : Key) (ks : List Key) :
    (declareRail ka kb ks).wp (fun o t => ∀ r, o = .ok r → r = w.quantities.fresh ∧
      ∃ c a b held, w.node? ka = some a ∧ w.node? kb = some b ∧
        (∀ n ∈ held, w.node? (some n.id) = some n) ∧ t = w.railed c a b held) w := by
  refine (declareRail_cases h rfl ka kb ks).mono fun o t ht r hr => ?_
  subst hr
  obtain ⟨-, rfl, a, b, held, ha, hb, hheld, rfl⟩ := ht
  refine ⟨rfl, _, a, b, held, ha, hb, fun n hn => ?_, rfl⟩
  have hmem : some n ∈ ks.eraseDups.map w.node? := hheld ▸ List.mem_map.2 ⟨n, hn, rfl⟩
  obtain ⟨k, -, hk⟩ := List.mem_map.1 hmem
  rwa [(Scene.of_node?_eq_some hk).2]

theorem declareRail_extended (h : w.Sound) (ka kb : Key) (ks : List Key) :
    (declareRail ka kb ks).wp (Extends w) w := by
  refine (declareRail_railed h ka kb ks).mono fun o t ht r hr => ?_
  obtain ⟨rfl, c, a, b, held, -, -, -, rfl⟩ := ht r hr
  exact extended_railed

/-! ### The call and its undoing -/

/-- What the call declared, if it succeeded, can be withdrawn, and then everything is as before. -/
def Revocable (w : Sketch K) (o : Except (Failure K) Ref) (t : Sketch K) : Prop :=
  ∀ r, o = .ok r → (withdraw (some (t.quantity r).id)).wp (fun o u => o = .ok () ∧ Restored w u) t

theorem Extends.revocable {o : Except (Failure K) Ref} (h : Extends w o t) (hw : w.Sound)
    (ht : Grown w t) : Revocable w o t :=
  fun r hr => (h r hr).withdraw hw ht.sound

end Sketch

namespace Bench

open Act

/-- After every run, to declare a quantity of any kind and to withdraw it right away leaves what was
there before; only ids were given out. -/
theorem withdrawn_after_run {K : Type} [Scalar K] (c : Config K) (springs : Arena (Spring K))
    (quantities : Arena (Quantity K)) (ops : List (Op K)) (a b pivot : Key)
    (lower upper : BoundArg Ref K) (captives : List Key) :
    let w := (after ops (empty c springs quantities)).toSketch
    (Sketch.declareDistance a b lower upper).wp (Sketch.Revocable w) w ∧
      (Sketch.declareAngle a b pivot lower upper).wp (Sketch.Revocable w) w ∧
      (Sketch.declareRail a b captives).wp (Sketch.Revocable w) w := by
  intro w
  have h : w.Sound := sound_after c springs quantities ops
  refine ⟨?_, ?_, ?_⟩
  · exact ((Sketch.declareDistance_extended h a b lower upper).and
      (Sketch.declareDistance_grown h a b lower upper)).mono fun o t ht => ht.1.revocable h ht.2
  · exact ((Sketch.declareAngle_extended h a b pivot lower upper).and
      (Sketch.declareAngle_grown h a b pivot lower upper)).mono fun o t ht => ht.1.revocable h ht.2
  · exact ((Sketch.declareRail_extended h a b captives).and
      (Sketch.declareRail_grown h a b captives)).mono fun o t ht => ht.1.revocable h ht.2

end Bench

end Linkage
