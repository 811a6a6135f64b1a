import Linkage.Proofs.Scene.Measure
import Linkage.Proofs.Sketch.Change
import Linkage.Sketch.Declare

/-!
# Declaring keeps a sketch sound

What is declared or held gets a spring that is made for it in the same operation; an operation that
fails on the way leaves a sound sketch (`Sketch.Grown`).
-/

namespace Linkage.Sketch

open Act

variable {K : Type} [Scalar K] {w t : Sketch K} {k : Key} {r : Ref} {i : Id}

omit [Scalar K] in
theorem wp_onScene {α : Type} {Q : Except (Failure K) α → Sketch K → Prop} (x : Act K (Scene K) α) :
    x.onScene.wp Q w ↔ x.wp (fun o v => Q o (w.withScene v)) w.toScene :=
  Iff.rfl

/-! ### Checks -/

omit [Scalar K] in
theorem wp_needQuantity {Q : Except (Failure K) Ref → Sketch K → Prop} :
    (needQuantity k).wp Q w ↔
      match w.quantityRef? k with
      | some r => Q (.ok r) w
      | none => Q (.error (.noSuchQuantity k)) w := by
  unfold needQuantity
  rw [wp_bind, wp_read, next_ok]
  cases w.quantityRef? k <;> exact Iff.rfl

omit [Scalar K] in
/-- A quantity is looked up, then something is done with it. -/
theorem wp_bind_needQuantity {α : Type} {I : Sketch K → Prop} {f : Ref → Act K (Sketch K) α}
    (h : I w) (hf : ∀ r, w.quantityRef? k = some r → (f r).wp (fun _ t => I t) w) :
    (needQuantity k >>= f).wp (fun _ t => I t) w := by
  rw [wp_bind, wp_needQuantity]
  cases hr : w.quantityRef? k with
  | none => exact h
  | some r => exact hf r hr

omit [Scalar K] in
theorem wp_needOwnNode {Q : Except (Failure K) Id → Sketch K → Prop} :
    (needOwnNode k).wp Q w ↔
      match w.node? k with
      | some n => Q (.ok n.id) w
      | none => Q (.error (.foreignNode k)) w := by
  unfold needOwnNode
  rw [wp_bind, wp_read, next_ok]
  cases w.node? k <;> exact Iff.rfl

omit [Scalar K] in
theorem needOwnNode_spec (w : Sketch K) (k : Key) : (needOwnNode k).wp (fun _ t => t = w) w := by
  unfold needOwnNode
  rw [wp_bind, wp_read, next_ok]
  split <;> rfl

omit [Scalar K] in
theorem isNode_of_needOwnNode {a : Id} (h : (needOwnNode k w).outcome = .ok a) :
    w.isNode (some a) := by
  have hneed : (needOwnNode k).wp (fun o _ => ∀ a, o = .ok a → w.isNode (some a)) w := by
    rw [wp_needOwnNode]
    cases hn : w.node? k with
    | none => exact fun _ ha => by cases ha
    | some n =>
      rintro a ⟨⟩
      exact Scene.isNode_of_mem (Scene.of_node?_eq_some hn).1
  exact hneed a h

omit [Scalar K] in
theorem warnUnits_spec (w : Sketch K) (kind : QuantityKind) (q : Quantity K) :
    (warnUnits kind q).wp (fun o t => o = .ok () ∧ t = w) w := by
  unfold warnUnits
  rw [wp_ite]
  split <;> exact ⟨rfl, rfl⟩

/-- A bound refers to a declared quantity if it refers to any. -/
theorem toBound_spec (w : Sketch K) (kind : QuantityKind) (arg : BoundArg Ref K) :
    (toBound kind arg).wp (fun o t => t = w ∧ ∀ b, o = .ok b → w.Backed b) w := by
  have hlit : ∀ n : Number K, w.Backed (some (.literal n)) := fun n i hi => by cases hi
  unfold toBound
  split
  · exact ⟨rfl, fun b hb => by cases hb; intro i hi; cases hi⟩
  · exact ⟨rfl, fun b hb => by cases hb; exact hlit _⟩
  · next i =>
    rw [wp_bind, wp_needQuantity]
    cases hr : w.quantityRef? (some i) with
    | none => exact ⟨rfl, fun b hb => by cases hb⟩
    | some r =>
      obtain ⟨hmem, hid⟩ := of_quantityRef?_eq_some hr
      simp only [next_ok, wp_bind, wp_read]
      refine (warnUnits_spec w _ _).mono fun o t => ?_
      rintro ⟨rfl, rfl⟩
      refine ⟨rfl, fun b hb => ?_⟩
      cases hb
      intro j hj
      cases hj
      exact ⟨r, hmem, Option.some.inj hid⟩
  · next r =>
    simp only [wp_bind, wp_read, next_ok, wp_ite]
    split
    · next hr =>
      refine (warnUnits_spec w _ _).mono fun o t => ?_
      rintro ⟨rfl, rfl⟩
      refine ⟨rfl, fun b hb => ?_⟩
      cases hb
      intro j hj
      cases hj
      exact ⟨r, (of_quantityRef?_eq_some hr).1, rfl⟩
    · exact ⟨rfl, fun b hb => by cases hb⟩
  · next n =>
    rw [wp_bind, wp_ofExcept]
    cases n.measured with
    | error e => exact ⟨rfl, fun b hb => by cases hb⟩
    | ok x => exact ⟨rfl, fun b hb => by cases hb; exact hlit _⟩
  · exact ⟨rfl, fun b hb => by cases hb⟩

omit [Scalar K] in
theorem shownBound_spec (w : Sketch K) (arg : BoundArg Ref K) :
    (shownBound arg).wp (fun _ t => t = w) w := by
  unfold shownBound
  rw [wp_bind, wp_read, next_ok]
  split
  · rw [wp_ite]
    split <;> rfl
  · rfl

/-! ### Springs are set -/

/-- To look a bound up changes nothing. -/
theorem valueOf_spec (w : Sketch K) (b : Option (Limit K)) :
    (valueOf b).wp (fun _ t => t = w) w := by
  unfold valueOf
  split
  · rfl
  · rfl
  · rw [wp_bind, wp_read, next_ok]
    split
    · rw [wp_bind, wp_ofExcept]
      cases (w.quantity _).read w.toScene <;> rfl
    · rfl

/-- Quantities stay as they are, springs keep their names and joints, and rails' springs their
bounds. -/
theorem refreshOne_alike (h : w.Sound) (hr : r ∈ w.declared) :
    (refreshOne r).wp
      (fun _ t => ∃ v, (Scene.Alike w.toScene v ∧ Scene.Spared w.toScene v) ∧ t = w.withScene v)
      w := by
  have hself : ∃ v, (Scene.Alike w.toScene v ∧ Scene.Spared w.toScene v) ∧ w = w.withScene v :=
    ⟨_, ⟨.refl _, .refl _⟩, rfl⟩
  unfold refreshOne
  rw [wp_bind, wp_read, next_ok]
  refine wp_bind_check (valueOf_spec w _) hself fun lo => ?_
  refine wp_bind_check (valueOf_spec w _) hself fun hi => ?_
  rw [wp_onScene]
  exact ((Quantity.impose_alike _ w.toScene lo hi _).and (Quantity.impose_spared w.toScene lo hi _
    fun i hi => h.made r i ⟨hr, hi⟩)).mono fun _ v hv => ⟨v, hv, rfl⟩

/-! ### Declaring -/

/-- The quantity is declared, even if its springs cannot be set. -/
theorem enter_spec {q : Quantity K} (h : w.Sound)
    (hlt : ∀ r ∈ w.declared, (w.quantity r).id < q.id) (hn : q.id < w.nextQuantity)
    (hq : Fits w w.quantities.fresh q) (hothers : q.others = []) :
    (enter q).wp
      (fun _ t => Onward w t ∧ Scene.Spared w.toScene t.toScene ∧
        (∀ k s, w.springRef? k = some s → t.springRef? k = some s) ∧
        ∀ r i, t.Owns r i → w.Owns r i ∨ i ∈ q.springIds) w := by
  have ho := onward_declare h hlt hn hq hothers
  unfold enter
  simp only [wp_bind, wp_read, next_ok, wp_change]
  refine (refreshOne_alike ho.sound (mem_declare.2 (.inr rfl))).mono fun o t ht => ?_
  obtain ⟨v, ⟨hv, hs⟩, rfl⟩ := ht
  have hg := alike_withScene ho.sound hv hs
  have key := And.intro (ho.trans hg.toOnward) (And.intro hg.spared (And.intro hg.kept fun r i hi =>
    (owns_declare (w := w) (q := q) (r := r) (i := i) h hi).imp_right And.right))
  cases o with
  | error e => exact key
  | ok _ => exact key

/-- A distance or an angle fits in over the spring that has just been made between its nodes. -/
theorem fits_between {q : Quantity K} {v : Scene K} {s : Spring K} (h : w.Sound)
    (hv : Scene.Entered w.toScene v s) (hsk : s.kind = .distance)
    (hse : s.endpoints = [some q.a, some q.b]) (hk : q.kind = .distance ∨ ∃ p, q.kind = .angle p)
    (hids : q.springIds = [w.graph.nextSpring]) (hc : q.captives = []) (hlo : w.Backed q.lower)
    (hhi : w.Backed q.upper) : Fits (w.withScene v) w.quantities.fresh q := by
  constructor
  case proper =>
    unfold Quantity.Proper
    rcases hk with hk | ⟨p, hk⟩ <;> rw [hk] <;> exact ⟨⟨_, hids⟩, hc⟩
  case springIds_nodup => exact hids ▸ List.nodup_singleton _
  case apart =>
    intro s' hs' _ i hi hi'
    rw [hids, List.mem_singleton] at hi
    rw [hi] at hi'
    exact Int.lt_irrefl _ (h.owned_lt s' _ ⟨hs', hi'⟩)
  case owned_lt =>
    intro i hi
    rw [hids, List.mem_singleton] at hi
    rw [hi]
    exact hv.lt
  case made =>
    intro i hi s' hs'
    rw [hids, List.mem_singleton] at hi
    rw [hi] at hs'
    cases hs'.symm.trans hv.named
    have hmade : (v.spring w.springs.fresh).kind = .distance ∧
        (v.spring w.springs.fresh).endpoints = [some q.a, some q.b] := by
      rw [show v.spring w.springs.fresh = _ from hv.spring]
      exact ⟨hsk, hse⟩
    unfold Quantity.Made
    rcases hk with hk | ⟨p, hk⟩ <;> rw [hk] <;> exact hmade
  case lower => exact hlo
  case upper => exact hhi

/-- What is declared between two nodes: it gets the next id and owns the next spring. -/
def between (w : Sketch K) (kind : QuantityKind) (a b : Id) (lo hi : Option (Limit K)) :
    Quantity K :=
  { id := w.nextQuantity, kind := kind, a := a, b := b, lower := lo, upper := hi,
    springIds := [w.graph.nextSpring], captives := [] }

/-- What a distance and an angle come down to once their arguments were accepted: a new spring
between two nodes and a new quantity over it. -/
def own (kind : QuantityKind) (a b : Id) (lo hi : Option (Limit K)) (e : Event K) :
    Act K (Sketch K) Ref := do
  let i ← nextId
  let s ← addSpringBetween a b
  report e
  enter
    { id := i, kind := kind, a := a, b := b, lower := lo, upper := hi, springIds := [s],
      captives := [] }

/-- A distance or an angle may be declared over these nodes and between these bounds. -/
structure Admits (w : Sketch K) (kind : QuantityKind) (a b : Id) (lo hi : Option (Limit K)) :
    Prop where
  kind : kind = .distance ∨ ∃ p, kind = .angle p ∧ w.isNode (some p)
  first : w.isNode (some a)
  second : w.isNode (some b)
  lower : w.Backed lo
  upper : w.Backed hi

section

variable {kind : QuantityKind} {a b : Id} {lo hi : Option (Limit K)} {lower upper : BoundArg Ref K}
  {Q : Except (Failure K) Ref → Sketch K → Prop}

/-- The rule for a new quantity over a new spring: where the spring cannot be made an id was passed
and nothing else happened. -/
theorem wp_own (h : w.Sound) (hargs : w.Admits kind a b lo hi) (e : Event K)
    (hfail : ∀ e, Q (.error e) w.passId)
    (henter : ∀ v s, Scene.Entered w.toScene v s →
      v = (w.toScene.makeSpring s).enlist w.springs.fresh → s.kind = .distance →
      Onward w (w.passId.withScene v) →
      Fits (w.passId.withScene v) w.quantities.fresh (w.between kind a b lo hi) →
      (enter (w.between kind a b lo hi)).wp Q (w.passId.withScene v)) :
    (own kind a b lo hi e).wp Q w := by
  have hp := grown_passId h
  have hk : kind = .distance ∨ ∃ p, kind = .angle p :=
    hargs.kind.imp_right fun ⟨p, hk, _⟩ => ⟨p, hk⟩
  unfold own nextId addSpringBetween
  simp only [wp_bind, wp_read, next_ok, wp_change, wp_pure, wp_onScene]
  refine (Scene.tie_spec hp.sound.scene a b none none).mono fun o v hv => ?_
  cases o with
  | error e =>
    rw [show v = w.toScene from hv]
    exact hfail e
  | ok r =>
    obtain ⟨s, hsk, hse, hv, hmade⟩ := hv
    exact henter v s hv hmade hsk (hp.toOnward.trans (onward_withScene hp.sound hv.onward))
      (fits_between (q := w.between kind a b lo hi) hp.sound hv hsk hse hk rfl rfl hargs.lower
        hargs.upper)

theorem own_grown (h : w.Sound) (hargs : w.Admits kind a b lo hi) (e : Event K) :
    (own kind a b lo hi e).wp (fun _ t => Grown w t) w := by
  refine wp_own h hargs e (fun _ => grown_passId h) fun v s hv _ hsk hw hfits => ?_
  refine (enter_spec (q := w.between kind a b lo hi) hw.sound h.id_lt (Int.lt_succ _) hfits
    rfl).mono fun o t ht => ?_
  obtain ⟨ho, hs, hkept, howns⟩ := ht
  refine ⟨hw.trans ho, hv.spared.trans hs, fun k s' hs' => hkept k s' (hv.kept k s' hs'),
    fun r i hi => ?_⟩
  rcases howns r i hi with hi | hi
  · exact .inl hi
  · rw [List.mem_singleton.1 hi]
    have hnamed := hkept _ _ hv.named
    have hmade : (v.spring w.springs.fresh).kind = .distance := by
      rw [show v.spring w.springs.fresh = _ from hv.spring]
      exact hsk
    have hkind : (t.spring w.springs.fresh).kind = .distance :=
      (ho.scene.kind_eq hv.onward.sound hv.named hnamed).trans hmade
    exact .inr ⟨_, Nat.le_refl _, hnamed, fun hrail => by cases hkind.symm.trans hrail⟩

/-- The rule for bounds: both are read before anything is done. -/
theorem wp_toBounds {f : Option (Limit K) → Option (Limit K) → Act K (Sketch K) Ref}
    (hfail : ∀ e, Q (.error e) w)
    (hf : ∀ lo hi, (toBound kind lower w).outcome = .ok lo →
      (toBound kind upper w).outcome = .ok hi → (f lo hi).wp Q w) :
    (do
      let lo ← toBound kind lower
      let hi ← toBound kind upper
      f lo hi).wp Q w := by
  refine wp_bind_look (toBound_spec w kind lower).1 hfail fun lo hlo => ?_
  exact wp_bind_look (toBound_spec w kind upper).1 hfail fun hi hhi => hf lo hi hlo hhi

/-- The rule for a distance: where an argument is not accepted nothing happens. -/
theorem wp_declareDistance {a b : Key} (hfail : ∀ e, Q (.error e) w)
    (hgo : ∀ kind a b lo hi e, w.Admits kind a b lo hi → (toBound kind lower w).outcome = .ok lo →
      (toBound kind upper w).outcome = .ok hi → (own kind a b lo hi e).wp Q w) :
    (declareDistance a b lower upper).wp Q w := by
  unfold declareDistance
  refine wp_bind_look (shownBound_spec w lower) hfail fun _ _ => ?_
  refine wp_bind_look (shownBound_spec w upper) hfail fun _ _ => ?_
  rw [wp_bind, wp_report, next_ok]
  refine wp_bind_look (needOwnNode_spec w a) hfail fun a ha => ?_
  refine wp_bind_look (needOwnNode_spec w b) hfail fun b hb => ?_
  refine wp_toBounds hfail fun lo hi hlo hhi => ?_
  refine hgo .distance a b lo hi .distanceAdded ?_ hlo hhi
  exact ⟨.inl rfl, isNode_of_needOwnNode ha, isNode_of_needOwnNode hb,
    (toBound_spec w _ lower).2 lo hlo, (toBound_spec w _ upper).2 hi hhi⟩

/-- The rule for an angle is the same. -/
theorem wp_declareAngle {a b pivot : Key} (hfail : ∀ e, Q (.error e) w)
    (hgo : ∀ kind a b lo hi e, w.Admits kind a b lo hi → (toBound kind lower w).outcome = .ok lo →
      (toBound kind upper w).outcome = .ok hi → (own kind a b lo hi e).wp Q w) :
    (declareAngle a b pivot lower upper).wp Q w := by
  unfold declareAngle
  refine wp_bind_look (shownBound_spec w lower) hfail fun _ _ => ?_
  refine wp_bind_look (shownBound_spec w upper) hfail fun _ _ => ?_
  rw [wp_bind, wp_report, next_ok]
  refine wp_bind_look (needOwnNode_spec w a) hfail fun a ha => ?_
  refine wp_bind_look (needOwnNode_spec w b) hfail fun b hb => ?_
  refine wp_bind_look (needOwnNode_spec w pivot) hfail fun p hp => ?_
  rw [wp_ite]
  split
  · exact hfail _
  refine wp_toBounds hfail fun lo hi hlo hhi => ?_
  refine hgo (.angle p) a b lo hi .angleAdded ?_ hlo hhi
  exact ⟨.inr ⟨p, rfl, isNode_of_needOwnNode hp⟩, isNode_of_needOwnNode ha,
    isNode_of_needOwnNode hb, (toBound_spec w _ lower).2 lo hlo, (toBound_spec w _ upper).2 hi hhi⟩

end

theorem declareDistance_grown (h : w.Sound) (a b : Key) (lower upper : BoundArg Ref K) :
    (declareDistance a b lower upper).wp (fun _ t => Grown w t) w :=
  wp_declareDistance (fun _ => .refl h) fun _ _ _ _ _ e hargs _ _ => own_grown h hargs e

theorem declareAngle_grown (h : w.Sound) (a b pivot : Key) (lower upper : BoundArg Ref K) :
    (declareAngle a b pivot lower upper).wp (fun _ t => Grown w t) w :=
  wp_declareAngle (fun _ => .refl h) fun _ _ _ _ _ e hargs _ _ => own_grown h hargs e

/-- One bound is set, the other stays. -/
theorem setBound_grown (h : w.Sound) (k : Key) (arg : BoundArg Ref K)
    {put : Option (Limit K) → Quantity K → Quantity K}
    (hput : ∀ b q, put b q = { q with lower := b } ∨ put b q = { q with upper := b }) :
    (do
      let r ← needQuantity k
      let b ← toBound ((← read).quantity r).kind arg
      change (·.changeQuantity r (put b))).wp (fun _ t => Grown w t) w := by
  refine wp_bind_needQuantity (.refl h) fun r hr => ?_
  have hmem := (of_quantityRef?_eq_some hr).1
  rw [wp_bind, wp_read, next_ok, wp_bind]
  refine (toBound_spec w _ arg).mono fun o t => ?_
  rintro ⟨rfl, hb⟩
  cases o with
  | error e => exact .refl h
  | ok b =>
    refine grown_changeBounds h hmem ?_
    rcases hput b (t.quantity r) with e | e
    · exact ⟨b, _, hb b rfl, h.upper r hmem, e⟩
    · exact ⟨_, b, h.lower r hmem, hb b rfl, e⟩

theorem setLower_grown (h : w.Sound) (k : Key) (arg : BoundArg Ref K) :
    (setLower k arg).wp (fun _ t => Grown w t) w :=
  setBound_grown h k arg fun _ _ => .inl rfl

theorem setUpper_grown (h : w.Sound) (k : Key) (arg : BoundArg Ref K) :
    (setUpper k arg).wp (fun _ t => Grown w t) w :=
  setBound_grown h k arg fun _ _ => .inr rfl

/-! ### Rails and captives -/

/-- A captive is written down with the spring that was made for it, which may be set since. -/
theorem grown_hold {n : Id} {s : Spring K} {v v' : Scene K} (h : w.Sound) (hr : r ∈ w.declared)
    (hk : (w.quantity r).kind = .rail) (hover : (w.quantity r).isOver (some n) = false)
    (hfree : (w.quantity r).springHolding? (some n) = none) (hv : Scene.Entered w.toScene v s)
    (hsk : s.kind = .rail) (hse : s.endpoints = [some n]) (hst : s.Tight) (hv' : Scene.Alike v v')
    (hs : Scene.Spared v v') :
    Grown w ((w.withScene v').changeQuantity r (·.hold n w.graph.nextSpring)) := by
  have hw := (grown_withScene h hv.onward hv.spared hv.kept).trans
    (alike_withScene (onward_withScene h hv.onward).sound hv' hs)
  have hends : n ≠ (w.quantity r).a ∧ n ≠ (w.quantity r).b := by
    have : ∀ i ∈ (w.quantity r).nodeIds, i ≠ n := by
      simpa [Quantity.isOver] using hover
    rw [Quantity.nodeIds, hk] at this
    exact ⟨(this _ (by simp)).symm, (this _ (by simp)).symm⟩
  have hnamed : v'.springRef? (some w.graph.nextSpring) = some w.springs.fresh := by
    rw [hv'.springRef?]
    exact hv.named
  have hfresh : w.springs.fresh ∈ v.graph.listed := (Scene.of_springRef?_eq_some hv.named).1
  have hmade : ∀ s', v'.springRef? (some w.graph.nextSpring) = some s' →
      (v'.spring s').kind = .rail ∧ (v'.spring s').endpoints = [some n] := by
    intro s' hs'
    cases hs'.symm.trans hnamed
    rw [hv'.kind _ hfresh, hv'.endpoints _ hfresh, hv.spring]
    exact ⟨hsk, hse⟩
  have hfits : Fits (w.withScene v') r ((w.quantity r).hold n w.graph.nextSpring) := by
    refine fits_hold hw.sound hr hk hends (Quantity.springHolding?_eq_none hfree) ?_ ?_ hmade
    · show w.graph.nextSpring < v'.graph.nextSpring
      rw [hv'.nextSpring]
      exact hv.lt
    · exact fun s' hs' => Int.lt_irrefl _ (h.owned_lt s' _ hs')
  have ho : Onward (w.withScene v')
      ((w.withScene v').changeQuantity r (·.hold n w.graph.nextSpring)) :=
    onward_changeQuantity hw.sound hr rfl hfits rfl
  have htight : (v'.spring w.springs.fresh).Tight := by
    refine hs.tight ?_ ?_ <;> rw [hv.spring]
    · exact hsk
    · exact hst
  refine ⟨hw.toOnward.trans ho, hw.spared, hw.kept, fun s' i hi => ?_⟩
  rcases owns_changeQuantity hw.sound hi with ⟨-, hi⟩ | ⟨rfl, hi⟩
  · exact .inl hi
  · rcases List.mem_append.1 hi with hi | hi
    · exact .inl ⟨hr, hi⟩
    · rw [List.mem_singleton.1 hi]
      exact .inr ⟨_, Nat.le_refl _, hnamed, fun _ => htight⟩

theorem hold_grown (h : w.Sound) (rail node : Key) :
    (hold rail node).wp (fun _ t => Grown w t) w := by
  have hself := Grown.refl h
  unfold hold
  refine wp_bind_needQuantity hself fun r hr => ?_
  have hmem := (of_quantityRef?_eq_some hr).1
  rw [wp_bind, wp_read, next_ok, wp_ite]
  split
  · exact hself
  next hk =>
  refine wp_bind_check (needOwnNode_spec w node) hself fun n => ?_
  rw [wp_ite]
  split
  · exact hself
  next hover =>
  rw [wp_ite]
  split
  · exact hself
  next hfree =>
  rw [wp_bind, wp_read, next_ok]
  refine wp_bind_check (I := Grown w) rfl hself fun a => ?_
  refine wp_bind_check (I := Grown w) rfl hself fun b => ?_
  refine wp_bind_check (I := Grown w) rfl hself fun p => ?_
  refine wp_bind_check (I := Grown w) rfl hself fun c => ?_
  rw [wp_bind, wp_onScene]
  refine (Scene.enterNew_spec w.toScene _).mono fun o v hv => ?_
  cases o with
  | error e =>
    rw [show v = w.toScene from hv]
    exact hself
  | ok s =>
    obtain ⟨rfl, s, hs, hse, rfl⟩ := hv
    obtain ⟨hsk, hend, htight⟩ := Scene.build_rail hs
    exact grown_hold h hmem (not_not.1 hk) (Bool.eq_false_iff.2 hover)
      (Option.not_isSome_iff_eq_none.1 hfree) (Scene.entered h.scene hse) hsk hend htight
      (Scene.alike_setSpring rfl rfl rfl) (.setSpring fun hk => ⟨hk, rfl, rfl⟩)

omit [Scalar K] in
theorem needCaptives_spec (w : Sketch K) (a b : Id) (captives : List Key) :
    (needCaptives a b captives).wp (fun _ t => t = w) w := by
  unfold needCaptives
  refine wp_forEach (I := fun t => t = w) rfl fun k _ t ht => ?_
  rw [ht]
  refine wp_bind_check (needOwnNode_spec w k) rfl fun c => ?_
  rw [wp_ite]
  split <;> rfl

theorem declareRail_grown (h : w.Sound) (a b : Key) (captives : List Key) :
    (declareRail a b captives).wp (fun _ t => Grown w t) w := by
  have hself := Grown.refl h
  unfold declareRail
  rw [wp_bind, wp_report, next_ok]
  refine wp_bind_check (needOwnNode_spec w a) hself fun a => ?_
  refine wp_bind_check (needOwnNode_spec w b) hself fun b => ?_
  rw [wp_ite]
  split
  · exact hself
  refine wp_bind_check (needCaptives_spec w a b captives) hself fun _ => ?_
  have hp := grown_passId h
  unfold nextId
  simp only [wp_bind, wp_read, next_ok, wp_change, wp_pure]
  let q : Quantity K :=
    { id := w.nextQuantity, kind := .rail, a := a, b := b, lower := none, upper := none,
      springIds := [], captives := [] }
  have hfits : Fits w.passId w.quantities.fresh q := by
    constructor
    case proper => exact (Quantity.proper_rail (q := q) rfl).2 ⟨rfl, List.nodup_nil, by simp [q]⟩
    case lower => intro i hi; cases hi
    case upper => intro i hi; cases hi
    all_goals simp [q]
  refine (enter_spec (q := q) hp.sound h.id_lt (Int.lt_succ _) hfits rfl).mono fun o t ht => ?_
  obtain ⟨ho, hs, hkept, howns⟩ := ht
  have ht : Grown w t := by
    refine ⟨hp.toOnward.trans ho, hs, hkept, fun r i hi => ?_⟩
    rcases howns r i hi with hi | hi
    · exact .inl hi
    · cases hi
  cases o with
  | error e => exact ht
  | ok r =>
    simp only [next_ok, wp_bind]
    refine (wp_forEach (I := Grown w) ht fun k _ t ht =>
      (hold_grown ht.sound _ k).mono fun _ _ => ht.trans).mono fun o t ht => ?_
    cases o with
    | error e => exact ht
    | ok _ => exact ht

end Linkage.Sketch
