import Linkage.Proofs.Sketch.Twin

/-!
# Operations on twin sketches

Each operation of a sketch, done on two sketches that are one sketch under other names of springs,
fails on both or on neither and leaves such sketches again (`Sketch.Op.twin`). Nodes and quantities
go by one name on both sides.
-/

namespace Linkage.Sketch

open Act

variable {K : Type} [Scalar K] {f : Naming} {P L : Ref → Prop} {w t : Sketch K} {r : Ref}

namespace Twin

theorem agreed_onScene {α : Type} {x y : Act K (Scene K) α} (h : Twin f P L w t)
    (hx : Abreast (Scene.Twin f P) (Agreed (Scene.Twin f P)) x y w.toScene t.toScene) :
    Abreast (Twin f P L) (Agreed (Twin f P L)) x.onScene y.onScene w t :=
  hx.onPart (fun _ _ hv => h.withScene hv) fun _ _ _ _ hv => ⟨hv.1, h.withScene hv.2⟩

theorem keep_onScene {α : Type} {x y : Act K (Scene K) α} (h : Twin f P L w t)
    (hx : Keep (Scene.Twin f P) x y w.toScene t.toScene) :
    Keep (Twin f P L) x.onScene y.onScene w t :=
  hx.onPart (fun _ _ hv => h.withScene hv) fun _ _ _ _ hv => h.withScene hv

/-- A new spring goes by its own name on either side. -/
theorem made_onScene {x y : Act K (Scene K) Ref} (h : Twin f P L w t)
    (hx : Abreast (Scene.Twin f P) (Scene.Twin.Made f P) x y w.toScene t.toScene) :
    Abreast (Twin f P L) (fun r r' w t => r' = f.ref r ∧ r ∈ w.graph.listed ∧ Twin f P L w t)
      x.onScene y.onScene w t :=
  hx.onPart (fun _ _ hv => h.withScene hv) fun _ _ _ _ hv => ⟨hv.1, hv.2.1, h.withScene hv.2.2⟩

/-! ### What is needed -/

theorem needQuantity (h : Twin f P L w t) (k : Key) :
    Abreast (Twin f P L) (fun r r' w t => r' = r ∧ r ∈ w.declared ∧ Twin f P L w t)
      (Sketch.needQuantity k) (Sketch.needQuantity k) w t := by
  unfold Sketch.needQuantity
  rw [abreast_bind_read, h.quantityRef?]
  cases hr : w.quantityRef? k with
  | none => exact h
  | some r => exact ⟨rfl, (of_quantityRef?_eq_some hr).1, h⟩

theorem needOwnNode (h : Twin f P L w t) (k : Key) :
    Abreast (Twin f P L) (Agreed (Twin f P L)) (Sketch.needOwnNode k) (Sketch.needOwnNode k) w
      t := by
  unfold Sketch.needOwnNode
  rw [abreast_bind_read, h.scene.node?]
  cases w.node? k with
  | none => exact h
  | some n => exact ⟨rfl, h⟩

theorem needCaptives (h : Twin f P L w t) (a b : Id) (ks : List Key) :
    Keep (Twin f P L) (Sketch.needCaptives a b ks) (Sketch.needCaptives a b ks) w t := by
  refine keep_forEach_same h fun k _ _ _ h => (h.needOwnNode k).bind_agreed fun c w t h => ?_
  exact abreast_ite Iff.rfl h h

/-! ### Bounds -/

theorem warnUnits (h : Twin f P L w t) (kind : QuantityKind) {q q' : Quantity K}
    (hk : q'.kind = q.kind) :
    Keep (Twin f P L) (Sketch.warnUnits kind q) (Sketch.warnUnits kind q') w t := by
  unfold Sketch.warnUnits
  exact abreast_ite (by rw [hk]) h h

theorem toBound (h : Twin f P L w t) (kind : QuantityKind) (arg : BoundArg Ref K) :
    Abreast (Twin f P L) (Agreed (Twin f P L)) (Sketch.toBound kind arg) (Sketch.toBound kind arg)
      w t := by
  unfold Sketch.toBound
  split
  · exact ⟨rfl, h⟩
  · exact ⟨rfl, h⟩
  · refine (h.needQuantity _).bind fun r r' w t h => ?_
    obtain ⟨rfl, -, h⟩ := h
    rw [abreast_bind_read]
    exact (h.warnUnits kind (h.kind _)).bind fun _ _ _ _ h => ⟨rfl, h⟩
  · next r =>
    rw [abreast_bind_read]
    dsimp only
    rw [h.id, h.quantityRef?]
    refine abreast_ite Iff.rfl ?_ h
    exact (h.warnUnits kind (h.kind r)).bind fun _ _ _ _ h => ⟨rfl, h⟩
  · exact abreast_bind_ofExcept h _ fun _ _ => ⟨rfl, h⟩
  · exact h

theorem shownBound (h : Twin f P L w t) (arg : BoundArg Ref K) :
    Keep (Twin f P L) (Sketch.shownBound arg) (Sketch.shownBound arg) w t := by
  unfold Sketch.shownBound
  rw [Keep, abreast_bind_read]
  cases arg with
  | quantity r => exact abreast_ite (by rw [h.kind]) h h
  | _ => exact h

theorem valueOf (h : Twin f P L w t) (b : Option (Limit K)) :
    Abreast (Twin f P L) (Agreed (Twin f P L)) (Sketch.valueOf b) (Sketch.valueOf b) w t := by
  unfold Sketch.valueOf
  split
  · exact ⟨rfl, h⟩
  · exact ⟨rfl, h⟩
  · rw [abreast_bind_read, h.quantityRef?]
    cases hr : w.quantityRef? _ with
    | none => exact ⟨rfl, h⟩
    | some r =>
      dsimp only
      rw [h.owned r (.inl (of_quantityRef?_eq_some hr).1), Quantity.read_twin h.scene]
      exact abreast_bind_ofExcept h _ fun _ _ => ⟨rfl, h⟩

/-- Springs are set alike. -/
theorem refreshOne (h : Twin f P L w t) (hr : r ∈ w.declared ∨ L r) :
    Keep (Twin f P L) (Sketch.refreshOne r) (Sketch.refreshOne r) w t := by
  unfold Sketch.refreshOne
  rw [Keep, abreast_bind_read, h.owned r hr, h.clamped]
  generalize w.quantity r = q
  generalize w.clamped = clamped
  refine (h.valueOf q.lower).bind_agreed fun lower w t h => ?_
  refine (h.valueOf q.upper).bind_agreed fun upper w t h => ?_
  exact h.keep_onScene (Quantity.impose_twin h.scene q _ _ clamped)

/-! ### Declaring -/

theorem nextId (h : Twin f P L w t) :
    Abreast (Twin f P L) (Agreed (Twin f P L)) (Sketch.nextId (K := K)) Sketch.nextId w t := by
  unfold Sketch.nextId
  exact ⟨h.nextQuantity, h.passId⟩

theorem enter (h : Twin f P L w t) (q : Quantity K) :
    Abreast (Twin f P L) (Agreed (Twin f P L)) (Sketch.enter q) (Sketch.enter (q.under f)) w t := by
  have hfresh : t.quantities.fresh = w.quantities.fresh := h.size
  have hself : (w.makeQuantity q).quantity w.quantities.fresh = q := Arena.get_alloc_self
  have hself' : (t.makeQuantity (q.under f)).quantity w.quantities.fresh = q.under f := by
    rw [← hfresh]
    exact Arena.get_alloc_self
  have hlt : w.quantities.fresh < (w.makeQuantity q).quantities.size := by
    rw [Sketch.makeQuantity, Arena.size_alloc]
    exact Nat.lt_succ_self _
  have hmake : Twin f P L (w.makeQuantity q) (t.makeQuantity (q.under f)) := h.makeQuantity rfl
  have hnew := hmake.declare hlt (by rw [hself, hself'])
  unfold Sketch.enter
  rw [abreast_bind_read, hfresh, abreast_bind_change]
  have hmem : w.quantities.fresh ∈ ((w.makeQuantity q).declare w.quantities.fresh).declared :=
    List.mem_append_right _ (List.mem_singleton_self _)
  refine (hnew.refreshOne (.inl hmem)).bind fun _ _ w t h => ?_
  exact ⟨rfl, h⟩

theorem addSpringBetween (h : Twin f P L w t) (a b : Id) :
    Abreast (Twin f P L) (fun i i' w t => i' = f.id i ∧ Twin f P L w t)
      (Sketch.addSpringBetween (K := K) a b) (Sketch.addSpringBetween a b) w t := by
  unfold Sketch.addSpringBetween
  rw [abreast_bind_read, h.scene.nextSpring]
  exact (h.made_onScene (h.scene.tie _ _ none none)).bind fun _ _ _ _ h => ⟨rfl, h.2.2⟩

theorem own (h : Twin f P L w t) (kind : QuantityKind) (a b : Id) (lo hi : Option (Limit K))
    (e : Event K) :
    Keep (Twin f P L) (Sketch.own kind a b lo hi e) (Sketch.own kind a b lo hi e) w t := by
  refine h.nextId.bind_agreed fun i w t h => ?_
  refine (h.addSpringBetween a b).bind fun s s' w t h => ?_
  obtain ⟨rfl, h⟩ := h
  rw [abreast_bind_report]
  exact (h.enter { id := i, kind := kind, a := a, b := b, lower := lo, upper := hi,
                   springIds := [s], captives := [] }).keep fun _ _ _ _ h => h.2

theorem declareDistance (h : Twin f P L w t) (a b : Key) (lower upper : BoundArg Ref K) :
    Keep (Twin f P L) (Sketch.declareDistance a b lower upper)
      (Sketch.declareDistance a b lower upper) w t := by
  unfold Sketch.declareDistance
  refine (h.shownBound lower).bind fun _ _ w t h => ?_
  refine (h.shownBound upper).bind fun _ _ w t h => ?_
  rw [abreast_bind_report]
  refine (h.needOwnNode a).bind_agreed fun a w t h => ?_
  refine (h.needOwnNode b).bind_agreed fun b w t h => ?_
  refine (h.toBound _ lower).bind_agreed fun lo w t h => ?_
  refine (h.toBound _ upper).bind_agreed fun hi w t h => ?_
  exact h.own .distance _ _ _ _ _

theorem declareAngle (h : Twin f P L w t) (a b pivot : Key) (lower upper : BoundArg Ref K) :
    Keep (Twin f P L) (Sketch.declareAngle a b pivot lower upper)
      (Sketch.declareAngle a b pivot lower upper) w t := by
  unfold Sketch.declareAngle
  refine (h.shownBound lower).bind fun _ _ w t h => ?_
  refine (h.shownBound upper).bind fun _ _ w t h => ?_
  rw [abreast_bind_report]
  refine (h.needOwnNode a).bind_agreed fun a w t h => ?_
  refine (h.needOwnNode b).bind_agreed fun b w t h => ?_
  refine (h.needOwnNode pivot).bind_agreed fun p w t h => ?_
  refine abreast_ite Iff.rfl h ?_
  refine (h.toBound _ lower).bind_agreed fun lo w t h => ?_
  refine (h.toBound _ upper).bind_agreed fun hi w t h => ?_
  exact h.own (.angle _) _ _ _ _ _

/-! ### Rails and captives -/

theorem railEnd (h : Twin f P L w t) (i : Id) : t.railEnd i = w.railEnd i := by
  unfold Sketch.railEnd
  rw [h.scene.node?]
  cases w.node? (some i) <;> rfl

theorem hold (h : Twin f P L w t) (rail node : Key) :
    Keep (Twin f P L) (Sketch.hold rail node) (Sketch.hold rail node) w t := by
  unfold Sketch.hold
  refine (h.needQuantity rail).bind fun r r' w t h => ?_
  obtain ⟨rfl, hr, h⟩ := h
  rw [abreast_bind_read, h.owned _ (.inl hr)]
  generalize w.quantity _ = q
  refine abreast_ite Iff.rfl h ?_
  refine (h.needOwnNode node).bind_agreed fun n w t h => ?_
  refine abreast_ite Iff.rfl h ?_
  rw [q.springHolding?_under, Option.isSome_map]
  refine abreast_ite Iff.rfl h ?_
  rw [abreast_bind_read]
  dsimp only
  rw [h.railEnd, h.railEnd, h.railEnd, h.clamped, h.scene.nextSpring]
  generalize w.graph.nextSpring = s
  generalize w.clamped = clamped
  refine abreast_bind_ofExcept h _ fun a _ => ?_
  refine abreast_bind_ofExcept h _ fun b _ => ?_
  refine abreast_bind_ofExcept h _ fun p _ => ?_
  refine (h.agreed_onScene (h.scene.constants .rail)).bind_agreed fun c w t h => ?_
  refine (h.made_onScene (h.scene.enterNew _)).bind fun ref ref' w t h => ?_
  obtain ⟨rfl, -, h⟩ := h
  have hplaced := h.withScene (h.scene.changeSpring
    (g := fun s => { s with atRailEnd := (Rail.seat p a b clamped).2 }) (fun _ _ => rfl) ref)
  exact hplaced.changeQuantity r' (fun _ _ hq => hq) fun q => q.hold_under n s

theorem declareRail (h : Twin f P L w t) (a b : Key) (captives : List Key) :
    Keep (Twin f P L) (Sketch.declareRail a b captives) (Sketch.declareRail a b captives) w t := by
  unfold Sketch.declareRail
  rw [Keep, abreast_bind_report]
  refine (h.needOwnNode a).bind_agreed fun a w t h => ?_
  refine (h.needOwnNode b).bind_agreed fun b w t h => ?_
  refine abreast_ite Iff.rfl h ?_
  refine (h.needCaptives a b captives).bind fun _ _ w t h => ?_
  refine h.nextId.bind_agreed fun i w t h => ?_
  refine (h.enter { id := i, kind := .rail, a := a, b := b, lower := none, upper := none,
                    springIds := [], captives := [] }).bind_agreed fun r w t h => ?_
  have hloop := keep_forEach_same (l := captives) h fun k _ _ _ h => h.hold (some i) k
  exact hloop.bind fun _ _ _ _ h => h

/-! ### Withdrawing -/

theorem release (h : Twin f P L w t) (rail node : Key) :
    Keep (Twin f P L) (Sketch.release rail node) (Sketch.release rail node) w t := by
  unfold Sketch.release
  refine (h.needQuantity rail).bind fun r r' w t h => ?_
  obtain ⟨rfl, hr, h⟩ := h
  rw [abreast_bind_read, h.owned _ (.inl hr), Quantity.springHolding?_under]
  cases (w.quantity _).springHolding? node with
  | none => exact h
  | some s =>
    have hgone : Twin f P L (w.changeQuantity r' (·.release node s))
        (t.changeQuantity r' (·.release node (f.id s))) :=
      h.changeQuantity r' (fun q q' hq => hq) fun q => q.release_under node s
    exact (hgone.keep_onScene (hgone.scene.deleteSpring (some s))).bind fun _ _ _ _ h => h

theorem setBound (h : Twin f P L w t) (k : Key) (arg : BoundArg Ref K)
    {put : Option (Limit K) → Quantity K → Quantity K}
    (hp : ∀ b q q', q'.disowned = q.disowned → (put b q').disowned = (put b q).disowned)
    (hu : ∀ b q, put b (q.under f) = (put b q).under f) :
    Keep (Twin f P L)
      (do
        let r ← Sketch.needQuantity k
        let b ← Sketch.toBound ((← read).quantity r).kind arg
        change (·.changeQuantity r (put b)))
      (do
        let r ← Sketch.needQuantity k
        let b ← Sketch.toBound ((← read).quantity r).kind arg
        change (·.changeQuantity r (put b))) w t := by
  refine (h.needQuantity k).bind fun r r' w t h => ?_
  obtain ⟨rfl, -, h⟩ := h
  rw [abreast_bind_read, h.kind]
  refine (h.toBound _ arg).bind_agreed fun b w t h => ?_
  exact h.changeQuantity _ (hp b) (hu b)

theorem setLower (h : Twin f P L w t) (k : Key) (arg : BoundArg Ref K) :
    Keep (Twin f P L) (Sketch.setLower k arg) (Sketch.setLower k arg) w t :=
  h.setBound k arg (fun b _ _ hq => congrArg (fun q : Quantity K => { q with lower := b }) hq)
    fun _ _ => rfl

theorem setUpper (h : Twin f P L w t) (k : Key) (arg : BoundArg Ref K) :
    Keep (Twin f P L) (Sketch.setUpper k arg) (Sketch.setUpper k arg) w t :=
  h.setBound k arg (fun b _ _ hq => congrArg (fun q : Quantity K => { q with upper := b }) hq)
    fun _ _ => rfl

theorem withdraw (h : Twin f P L w t) (k : Key) :
    Keep (Twin f P L) (Sketch.withdraw k) (Sketch.withdraw k) w t := by
  unfold Sketch.withdraw
  rw [Keep, abreast_bind_report, abreast_bind_read, h.quantityRef?]
  cases hr : w.quantityRef? k with
  | none => exact h
  | some r =>
    dsimp only
    rw [h.owned r (.inl (of_quantityRef?_eq_some hr).1)]
    have hloop : Keep (Twin f P L)
        (forEach (fun i => (Scene.deleteSpring (some i)).onScene) (w.quantity r).springIds)
        (forEach (fun i => (Scene.deleteSpring (some i)).onScene)
          ((w.quantity r).under f).springIds) w t :=
      keep_forEach h rfl fun i _ _ _ h => h.keep_onScene (h.scene.deleteSpring (some i))
    refine hloop.bind fun _ _ w t h => ?_
    exact (h.changeQuantity r (fun _ _ hq => congrArg Quantity.disowned hq) fun _ => rfl).strike k

theorem withdrawNode (h : Twin f P L w t) (k : Key) :
    Keep (Twin f P L) (Sketch.withdrawNode k) (Sketch.withdrawNode k) w t := by
  unfold Sketch.withdrawNode
  rw [Keep, abreast_bind_report, abreast_bind_read]
  refine (h.forEach_declared fun L r w t h hr => ?_).bind fun _ _ w t h =>
    (h.keep_onScene (h.scene.deleteNode k)).bind fun _ _ _ _ h => h
  rw [Keep, abreast_bind_read, h.owned r hr]
  refine abreast_ite Iff.rfl (h.withdraw _) ?_
  exact abreast_ite (by rw [Quantity.springHolding?_under, Option.isSome_map]) (h.release _ k) h

theorem prune (h : Twin f P L w t) :
    Keep (Twin f P L) (Sketch.prune (K := K)) Sketch.prune w t := by
  unfold Sketch.prune
  rw [Keep, abreast_bind_read]
  refine h.forEach_declared fun L r w t h hr => ?_
  unfold pruneOne
  have hisNode : ∀ {w t : Sketch K}, Twin f P L w t → ∀ k, t.isNode k = w.isNode k := fun h =>
    h.scene.isNode
  rw [Keep, abreast_bind_read, h.owned r hr]
  refine abreast_ite (by simp only [hisNode h]; rfl) ?_ (h.withdraw _)
  rw [Quantity.fst_captives_under]
  refine keep_forEach_same h fun c _ w t h => ?_
  rw [Keep, abreast_bind_read]
  exact abreast_ite (by rw [hisNode h]) h (h.release _ _)

theorem readingOf (h : Twin f P L w t) (k : Key) :
    Keep (Twin f P L) (Sketch.readingOf (K := K) k) (Sketch.readingOf k) w t := by
  unfold Sketch.readingOf
  refine h.prune.bind fun _ _ w t h => ?_
  refine (h.needQuantity k).bind fun r r' w t h => ?_
  obtain ⟨rfl, hr, h⟩ := h
  rw [abreast_bind_read, h.owned _ (.inl hr), Quantity.read_twin h.scene]
  exact abreast_ofExcept h _ fun _ _ => h

theorem refresh (h : Twin f P L w t) (dt : Option K) :
    Keep (Twin f P L) (Sketch.refresh dt) (Sketch.refresh dt) w t := by
  unfold Sketch.refresh
  refine h.prune.bind fun _ _ w t h => ?_
  rw [abreast_bind_read]
  refine (h.forEach_declared fun L r w t h hr => h.refreshOne hr).bind fun _ _ w t h => ?_
  cases dt with
  | none => exact h
  | some dt => exact h.keep_onScene (h.scene.advance dt)

end Twin

/-! ### Any operation -/

namespace Op

/-- The operation, where the springs that it names go by other names. -/
def under (f : Naming) : Op K → Op K
  | scene o => scene (o.under f)
  | o => o

theorem twin (h : Twin f P L w t) (o : Op K) : Keep (Twin f P L) o.act (o.under f).act w t := by
  have discard : ∀ {α : Type} {x y : Act K (Sketch K) α}, Keep (Twin f P L) x y w t →
      Keep (Twin f P L) (do let _ ← x) (do let _ ← y) w t := fun hx => hx.bind fun _ _ _ _ h => h
  cases o with
  | scene o => exact h.keep_onScene (o.twin h.scene)
  | declareDistance a b lower upper => exact discard (h.declareDistance a b lower upper)
  | declareAngle a b pivot lower upper => exact discard (h.declareAngle a b pivot lower upper)
  | declareRail a b captives => exact discard (h.declareRail a b captives)
  | hold rail node => exact h.hold rail node
  | release rail node => exact h.release rail node
  | setLower k arg => exact h.setLower k arg
  | setUpper k arg => exact h.setUpper k arg
  | readingOf k => exact discard (h.readingOf k)
  | valueNow b =>
    refine discard ?_
    unfold Sketch.valueNow
    exact h.prune.bind fun _ _ _ _ h => (h.valueOf b).keep fun _ _ _ _ h => h.2
  | withdraw k => exact h.withdraw k
  | withdrawNode k => exact h.withdrawNode k
  | refresh dt => exact h.refresh dt
  | makeQuantity q => exact h.makeQuantity rfl

end Op

end Linkage.Sketch
