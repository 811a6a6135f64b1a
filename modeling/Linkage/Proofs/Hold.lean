import Linkage.Proofs.Bench
import Linkage.Proofs.Real

/-!
# Holding a node on a rail

To hold a node is to make a spring for it and to write the spring down. A call that fails changes
nothing (`hold_cases`). What is written down counts, not what is there: a captive whose spring was
deleted directly is passed over as if it were held (`Lapsed`), and a rail that lost an end directly
is not noticed before the end is needed (`Broken`).
-/

namespace Linkage.Sketch

open Act

variable {K : Type} {w t : Sketch K} {rail node : Key} {r : Ref} {n i : Id} {e : Failure K}

/-! ### What a call can come to -/

/-- A reason to refuse the call that the caller can know of. -/
def Refuses (w : Sketch K) (rail node : Key) : Failure K → Prop
  | .noSuchQuantity k => k = rail ∧ w.quantityRef? rail = none
  | .notARail k => k = rail ∧ ∃ r, w.quantityRef? rail = some r ∧ (w.quantity r).kind ≠ .rail
  | .foreignNode k => k = node ∧ ¬ w.isNode node
  | .captiveOnRailEnd => ∃ r, w.quantityRef? rail = some r ∧ (w.quantity r).isOver node
  | _ => False

/-- The rail lost an end and is still declared. -/
def Broken (w : Sketch K) (rail : Key) : Prop :=
  ∃ r, w.quantityRef? rail = some r ∧
    ¬ (w.isNode (some (w.quantity r).a) ∧ w.isNode (some (w.quantity r).b))

variable [Scalar K]

/-- The node is a captive of the rail, and its spring is there and holds it. -/
def Held (w : Sketch K) (rail : Key) (n : Id) : Prop :=
  ∃ r i s, w.quantityRef? rail = some r ∧ (w.quantity r).kind = .rail ∧
    (n, i) ∈ (w.quantity r).captives ∧ w.springRef? (some i) = some s ∧
    (w.spring s).kind = .rail ∧ (w.spring s).endpoints = [some n]

/-- The node is a captive of the rail, and its spring is gone. -/
def Lapsed (w : Sketch K) (rail : Key) (n : Id) : Prop :=
  ∃ r i, w.quantityRef? rail = some r ∧ (w.quantity r).kind = .rail ∧
    (n, i) ∈ (w.quantity r).captives ∧ w.springRef? (some i) = none

omit [Scalar K] in
/-- To look where an end of a rail is fails only where the end is gone. -/
theorem wp_bind_railEnd {α : Type} {f : Point K → Act K (Sketch K) α}
    {P : Except (Failure K) α → Sketch K → Prop}
    (lost : ¬ w.isNode (some i) → P (.error .railEndLost) t) (there : ∀ p, (f p).wp P t) :
    (ofExcept (w.railEnd i) >>= f).wp P t := by
  rw [wp_bind, wp_ofExcept, railEnd]
  cases hn : w.node? (some i) with
  | none => exact lost (by simp [Scene.isNode, hn])
  | some m => exact there m.position

/-! ### The call -/

/-- What is written down once a spring was made for the captive. -/
theorem recorded_hold {s : Spring K} {v v' : Scene K} (h : w.Sound) (hr : r ∈ w.declared)
    (hfree : (w.quantity r).springHolding? (some n) = none) (hv : Scene.Entered w.toScene v s)
    (hv' : Scene.Alike v v') :
    let t := (w.withScene v').changeQuantity r (·.hold n w.graph.nextSpring)
    (t.quantity r).id = (w.quantity r).id ∧
      (n, w.graph.nextSpring) ∈ (t.quantity r).captives ∧
      t.springRef? (some w.graph.nextSpring) = some w.springs.fresh := by
  intro t
  have hself : t.quantity r = (w.quantity r).hold n w.graph.nextSpring :=
    quantity_changeQuantity_self _ (h.declared_lt r hr)
  rw [hself, captives_hold (Quantity.springHolding?_eq_none hfree)]
  refine ⟨rfl, by simp, ?_⟩
  show v'.springRef? _ = _
  rw [hv'.springRef?, hv.named]

/-- A call that fails changes nothing; when it succeeds the node is written down, with a spring that
is there unless it was written down before. -/
theorem hold_recorded (h : w.Sound) (rail node : Key) :
    (hold rail node).wp (fun o t => match o with
      | .error e => t = w ∧ (w.Refuses rail node e ∨ e = .railEndLost ∧ w.Broken rail)
      | .ok _ => ∃ n r i, node = some n ∧ (r ∈ t.declared ∧ some (t.quantity r).id = rail) ∧
          (n, i) ∈ (t.quantity r).captives ∧ (t.springRef? (some i) = none → t = w)) w := by
  unfold hold
  rw [wp_bind, wp_needQuantity]
  cases hr : w.quantityRef? rail with
  | none => exact ⟨rfl, .inl ⟨rfl, hr⟩⟩
  | some r =>
  have hmem := of_quantityRef?_eq_some hr
  simp only [next_ok]
  rw [wp_bind, wp_read, next_ok, wp_ite]
  split
  · next hk => exact ⟨rfl, .inl ⟨rfl, r, hr, hk⟩⟩
  rw [wp_bind, wp_needOwnNode]
  cases hn : w.node? node with
  | none => exact ⟨rfl, .inl ⟨rfl, by simp [Scene.isNode, hn]⟩⟩
  | some m =>
  obtain ⟨hm, rfl⟩ := Scene.of_node?_eq_some hn
  simp only [next_ok]
  rw [wp_ite]
  split
  · next hover => exact ⟨rfl, .inl ⟨r, hr, hover⟩⟩
  rw [wp_ite]
  split
  · next hheld =>
    obtain ⟨i, hi⟩ := Option.isSome_iff_exists.1 hheld
    obtain ⟨n, hn', hci⟩ := Quantity.springHolding?_eq_some hi
    exact ⟨n, r, i, hn', hmem, hci, fun _ => rfl⟩
  next hfree =>
  rw [wp_bind, wp_read, next_ok]
  refine wp_bind_railEnd (fun hlost => ⟨rfl, .inr ⟨rfl, r, hr, fun hab => hlost hab.1⟩⟩) fun a => ?_
  refine wp_bind_railEnd (fun hlost => ⟨rfl, .inr ⟨rfl, r, hr, fun hab => hlost hab.2⟩⟩) fun b => ?_
  refine wp_bind_railEnd (fun hlost => absurd (Scene.isNode_of_mem hm) hlost) fun p => ?_
  rw [wp_bind, wp_onScene, Scene.wp_constants]
  obtain ⟨s, hs⟩ := Scene.exists_build_rail (w.graph.config.constants .rail) (some m.id)
    (Rail.seat p a b w.clamped).1 (b - a)
  obtain ⟨-, hend, -⟩ := Scene.build_rail hs
  have hends : ∀ k ∈ s.endpoints, w.isNode k := by
    rw [hend]
    simpa using Scene.isNode_of_mem hm
  rw [next_ok, wp_bind, wp_onScene]
  refine (Scene.enterNew_ok hs hends).mono fun o v => ?_
  rintro ⟨rfl, rfl⟩
  obtain ⟨hid, hcap, hname⟩ := recorded_hold h hmem.1 (Option.not_isSome_iff_eq_none.1 hfree)
    (Scene.entered h.scene hends) (Scene.alike_setSpring (r := w.springs.fresh)
      (s := { (((w.makeSpring s).enlist w.springs.fresh).spring w.springs.fresh) with
        atRailEnd := (Rail.seat p a b w.clamped).2 }) rfl rfl rfl)
  refine ⟨m.id, r, w.graph.nextSpring, rfl, ⟨hmem.1, (congrArg some hid).trans hmem.2⟩, hcap,
    fun hnone => ?_⟩
  cases hname.symm.trans hnone

/-- What a call comes to: a refusal or a broken rail, and then nothing changed; a captive that is
held; or one that was written down before and has lost its spring, and then nothing changed
either. -/
theorem hold_cases (h : w.Sound) (rail node : Key) :
    (hold rail node).wp (fun o t => match o with
      | .error e => t = w ∧ (w.Refuses rail node e ∨ e = .railEndLost ∧ w.Broken rail)
      | .ok _ => ∃ n, node = some n ∧ (t.Held rail n ∨ t = w ∧ w.Lapsed rail n)) w := by
  refine ((hold_recorded h rail node).and (hold_grown h rail node)).mono fun o t => ?_
  rintro ⟨hrecorded, hgrown⟩
  cases o with
  | error e => exact hrecorded
  | ok _ =>
    obtain ⟨n, r, i, hn, hr, hci, hsame⟩ := hrecorded
    refine ⟨n, hn, ?_⟩
    have hk := (hgrown.sound.proper r hr.1).rail_of_mem hci
    have hr' := hgrown.sound.quantityRef?_iff.2 hr
    cases hs : t.springRef? (some i) with
    | some s => exact .inl ⟨r, i, s, hr', hk, hci, hs, hgrown.sound.captive_made hr.1 hci hs⟩
    | none =>
      cases hsame hs
      exact .inr ⟨rfl, r, i, hr', hk, hci, hs⟩

end Linkage.Sketch

namespace Linkage.Bench

/-- After every run, a call to hold a node on a rail fails for a reason that the caller can know of
or because the rail is broken, and changes nothing; or it succeeds, and the node is held by a spring
that is there, unless it was a captive before whose spring was gone. -/
theorem hold_after_run {K : Type} [Scalar K] (c : Config K) (springs : Arena (Spring K))
    (quantities : Arena (Quantity K)) (ops : List (Op K)) (rail node : Key) :
    let w := (after ops (empty c springs quantities)).toSketch
    (Sketch.hold rail node).wp (fun o t => match o with
      | .error e => t = w ∧ (w.Refuses rail node e ∨ e = .railEndLost ∧ w.Broken rail)
      | .ok _ => ∃ n, node = some n ∧ (t.Held rail n ∨ t = w ∧ w.Lapsed rail n)) w := by
  intro w
  exact Sketch.hold_cases (sound_after c springs quantities ops) rail node

/-- A rail with one captive, and one more node; then something is done to the scene alone. -/
noncomputable def railRun (o : Scene.Op ℝ) : List (Op ℝ) :=
  let node (x y : ℝ) : Op ℝ := .sketch (.scene (.addNode (.ofPoint ⟨x, y⟩)))
  [node 0 0, node 1 0, node 0 1, node 1 1,
    .sketch (.declareRail (some 0) (some 1) [some 2]), .sketch (.scene o)]

/-- Without an end of the rail the call fails for want of it, and without the captive's spring it
succeeds and holds nothing. -/
theorem hold_unheld :
    (let w := (after (railRun (.deleteNode (some 1))) (empty default {} {})).toSketch
      let report := Sketch.hold (some 0) (some 3) w
      report.outcome = .error .railEndLost ∧ ¬ w.Refuses (some 0) (some 3) .railEndLost) ∧
    let w := (after (railRun (.deleteSpring (some 0))) (empty default {} {})).toSketch
    let report := Sketch.hold (some 0) (some 2) w
    report.outcome = .ok () ∧ report.state = w ∧
      (w.declared.map fun r => (w.quantity r).captives) = [[(2, 0)]] ∧ w.graph.listed = [] :=
  ⟨⟨rfl, id⟩, rfl, rfl, rfl, rfl⟩

end Linkage.Bench
