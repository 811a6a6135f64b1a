import Linkage.Proofs.Bench
import Linkage.Proofs.Real

/-!
# Declaring as a whole

A distance or an angle is declared as a whole or nothing happens, but that the next id may have been
passed (`Bench.declared_after_run`). There is one way to get half of it: a bound may name a declared
quantity that lost a node and has not been withdrawn yet. It passes as a bound, the spring is made
and the quantity is listed, and then the bound cannot be read (`Bench.declared_dangling`).
-/

namespace Linkage.Sketch

open Act

variable {K : Type} [Scalar K] {w t u : Sketch K} {k : Key} {r : Ref} {i : Id}
  {b : Option (Limit K)} {arg lower upper : BoundArg Ref K}

/-! ### Bounds that can be read -/

omit [Scalar K] in
/-- By what the argument names a quantity, if it names one. -/
def named (w : Sketch K) : BoundArg Ref K → Key
  | .bound b => b.reference?
  | .quantity r => some (w.quantity r).id
  | _ => none

/-- The quantity that the argument names can be read, if it is declared. -/
def Readable (w : Sketch K) (arg : BoundArg Ref K) : Prop :=
  ∀ r, w.quantityRef? (w.named arg) = some r → ∃ x, (w.quantity r).read w.toScene = .ok x

theorem toBound_named (w : Sketch K) (kind : QuantityKind) (arg : BoundArg Ref K) :
    (toBound kind arg).wp
      (fun o t => t = w ∧ ∀ b, o = .ok b → b.bind Bound.reference? = w.named arg) w := by
  unfold toBound named
  split
  · exact ⟨rfl, fun b hb => by cases hb; rfl⟩
  · exact ⟨rfl, fun b hb => by cases hb; rfl⟩
  · next i =>
    rw [wp_bind, wp_needQuantity]
    split
    · simp only [next_ok, wp_bind, wp_read]
      refine (warnUnits_spec w _ _).mono fun o t => ?_
      rintro ⟨rfl, rfl⟩
      exact ⟨rfl, fun b hb => by cases hb; rfl⟩
    · exact ⟨rfl, fun b hb => by cases hb⟩
  · next r =>
    simp only [wp_bind, wp_read, next_ok, wp_ite]
    split
    · refine (warnUnits_spec w _ _).mono fun o t => ?_
      rintro ⟨rfl, rfl⟩
      exact ⟨rfl, fun b hb => by cases hb; rfl⟩
    · exact ⟨rfl, fun b hb => by cases hb⟩
  · next n =>
    rw [wp_bind, wp_ofExcept]
    cases n.measured with
    | error e => exact ⟨rfl, fun b hb => by cases hb⟩
    | ok x => exact ⟨rfl, fun b hb => by cases hb; rfl⟩
  · exact ⟨rfl, fun b hb => by cases hb⟩

/-- A bound comes to nothing only by what it refers to. -/
theorem not_readable {e : Failure K} (hb : b.bind Bound.reference? = w.named arg)
    (he : w.worth b = .error e) : ¬ w.Readable arg := by
  intro h
  unfold worth at he
  split at he
  · cases he
  · cases he
  · next i =>
    have hb : some i = w.named arg := hb
    split at he
    · next r hr =>
      obtain ⟨x, hx⟩ := h r (hb ▸ hr)
      rw [hx] at he
      cases he
    · cases he

/-! ### The quantity is listed over its spring -/

/-- The sketch with one more quantity, over a spring that was made for it in `v` and is yet to be
set. -/
def entering (w : Sketch K) (v : Scene K) (q : Quantity K) : Sketch K :=
  ((w.passId.withScene v).makeQuantity q).declare w.quantities.fresh

/-- A bound comes to what it came to before there was one more spring and one more quantity. -/
theorem worth_entering (h : w.Sound) {v : Scene K}
    (hv : ∀ k, (v.node? k).map Node.position = (w.node? k).map Node.position) (hb : w.Backed b)
    (q : Quantity K) : (w.entering v q).worth b = w.worth b := by
  let u := w.entering v q
  have hold : ∀ r ∈ w.declared, u.quantity r = w.quantity r := fun r hr =>
    Arena.get_alloc_of_lt (h.declared_lt r hr)
  show u.worth b = w.worth b
  unfold worth
  split
  · rfl
  · rfl
  · next i =>
    obtain ⟨r, hr, hid⟩ := hb i rfl
    have hname : w.quantityRef? (some i) = some r := h.quantityRef?_iff.2 ⟨hr, by rw [hid]⟩
    have hfind : w.declared.find? (fun r => some (u.quantity r).id == some i) = some r := by
      refine Eq.trans (List.find?_congr fun s hs => ?_) hname
      rw [hold s hs]
    have hname' : u.quantityRef? (some i) = some r := by
      show (w.declared ++ [w.quantities.fresh]).find? _ = _
      rw [List.find?_append, hfind]
      rfl
    have hread : (u.quantity r).read u.toScene = (w.quantity r).read w.toScene := by
      rw [hold r hr]
      exact Quantity.read_congr hv _
    simp only [hname, hname', hread]

/-- What is left of a call that declares between two bounds: a quantity more if it succeeds. If it
fails all is as before, unless a bound names what cannot be read. -/
def Declared (w : Sketch K) (lower upper : BoundArg Ref K) (o : Except (Failure K) Ref)
    (t : Sketch K) : Prop :=
  match o with
  | .ok r => t.declared = w.declared ++ [r]
  | .error _ => t = w ∨ t = w.passId ∨
      t.declared = w.declared ++ [w.quantities.fresh] ∧ ¬ (w.Readable lower ∧ w.Readable upper)

section

variable {kind : QuantityKind} {a c : Id} {lo hi : Option (Limit K)}

omit [Scalar K] in
theorem quantity_entering {v : Scene K} {q : Quantity K} :
    (w.entering v q).quantity w.quantities.fresh = q :=
  Arena.get_alloc_self

/-- All nodes that the new quantity is declared over are there when it is listed. -/
theorem whole_entering {v : Scene K} {s : Spring K} (hv : Scene.Entered w.toScene v s)
    (hargs : w.Admits kind a c lo hi) :
    (w.entering v (w.between kind a c lo hi)).Whole w.quantities.fresh := by
  obtain ⟨hk, ha, hc, -, -⟩ := hargs
  have hnode : ∀ k, w.isNode k → v.isNode k := fun k hn => by
    have := congrArg Option.isSome (hv.places k)
    rw [Option.isSome_map, Option.isSome_map] at this
    exact this.trans hn
  rw [Whole, quantity_entering]
  refine fun i hi => hnode _ ?_
  rcases hk with rfl | ⟨p, rfl, hp⟩
  · have hi : i = a ∨ i = c := by simpa [between, Quantity.nodeIds, Quantity.pivot?] using hi
    rcases hi with rfl | rfl <;> assumption
  · have hi : i = a ∨ i = c ∨ i = p := by
      simpa [between, Quantity.nodeIds, Quantity.pivot?] using hi
    rcases hi with rfl | rfl | rfl <;> assumption

/-- The rule for a new quantity over a new spring, up to where the spring is set: the quantity is
listed by then, and there is a failure only where a bound comes to nothing. -/
theorem wp_own_set (h : w.Sound) (hargs : w.Admits kind a c lo hi) (e : Event K)
    {Q : Except (Failure K) Ref → Sketch K → Prop} (hfail : ∀ e, Q (.error e) w.passId)
    (hset : ∀ v s u, Scene.Entered w.toScene v s →
      v = (w.toScene.makeSpring s).enlist w.springs.fresh →
      u = w.entering v (w.between kind a c lo hi) → u.Sound →
      (∀ e, ((∃ e, u.worth lo = .error e) ∨ ∃ e, u.worth hi = .error e) → Q (.error e) u) ∧
        ∀ v', Scene.Reset u.toScene v' [w.graph.nextSpring] (u.Keeps w.quantities.fresh) →
          Q (.ok w.quantities.fresh) (u.withScene v')) :
    (own kind a c lo hi e).wp Q w := by
  refine wp_own h hargs e hfail fun v s hv hmade _ hw hfits => ?_
  let q := w.between kind a c lo hi
  let u := w.entering v q
  have hu : u.Sound := (onward_declare (q := q) hw.sound h.id_lt (Int.lt_succ _) hfits rfl).sound
  have hq : u.quantity w.quantities.fresh = q := quantity_entering
  have htidy : u.TidyAt w.quantities.fresh := fun _ =>
    ⟨whole_entering hv hargs, fun c hc => by rw [hq] at hc; cases hc⟩
  obtain ⟨herror, hok⟩ := hset v s u hv hmade rfl hu
  unfold enter
  simp only [wp_bind, wp_read, next_ok, wp_change]
  have hrefresh := refreshOne_cases (r := w.quantities.fresh) hu (mem_declare.2 (.inr rfl)) htidy
  rw [hq] at hrefresh
  refine hrefresh.mono fun o t => ?_
  cases o with
  | error e =>
    rintro ⟨rfl, he⟩
    exact herror e he
  | ok _ =>
    rintro ⟨v', hset, rfl⟩
    exact hok v' hset

theorem own_declared (h : w.Sound) (hargs : w.Admits kind a c lo hi)
    (hlo : (toBound kind lower w).outcome = .ok lo)
    (hhi : (toBound kind upper w).outcome = .ok hi) (e : Event K) :
    (own kind a c lo hi e).wp (Declared w lower upper) w := by
  refine wp_own_set h hargs e (fun _ => .inr (.inl rfl)) fun v s u hv _ hu _ => ?_
  subst hu
  refine ⟨fun e he => .inr (.inr ⟨rfl, fun hread => ?_⟩), fun _ _ => rfl⟩
  rw [worth_entering h hv.places hargs.lower, worth_entering h hv.places hargs.upper] at he
  rcases he with ⟨e, he⟩ | ⟨e, he⟩
  · exact not_readable ((toBound_named w kind lower).2 lo hlo) he hread.1
  · exact not_readable ((toBound_named w kind upper).2 hi hhi) he hread.2

end

theorem declareDistance_declared (h : w.Sound) (a b : Key) (lower upper : BoundArg Ref K) :
    (declareDistance a b lower upper).wp (Declared w lower upper) w :=
  wp_declareDistance (fun _ => .inl rfl) fun _ _ _ _ _ e hargs hlo hhi =>
    own_declared h hargs hlo hhi e

theorem declareAngle_declared (h : w.Sound) (a b pivot : Key) (lower upper : BoundArg Ref K) :
    (declareAngle a b pivot lower upper).wp (Declared w lower upper) w :=
  wp_declareAngle (fun _ => .inl rfl) fun _ _ _ _ _ e hargs hlo hhi =>
    own_declared h hargs hlo hhi e

end Linkage.Sketch

namespace Linkage.Bench

open Act

/-- After every run, a distance or an angle between bounds that can be read is declared as a whole,
or all is as before the call but for the next id. -/
theorem declared_after_run {K : Type} [Scalar K] (c : Config K) (springs : Arena (Spring K))
    (quantities : Arena (Quantity K)) (ops : List (Op K)) (a b pivot : Key)
    (lower upper : BoundArg Ref K) :
    let w := (after ops (empty c springs quantities)).toSketch
    (Sketch.declareDistance a b lower upper).wp (Sketch.Declared w lower upper) w ∧
      (Sketch.declareAngle a b pivot lower upper).wp (Sketch.Declared w lower upper) w := by
  intro w
  have h : w.Sound := sound_after c springs quantities ops
  exact ⟨Sketch.declareDistance_declared h a b lower upper,
    Sketch.declareAngle_declared h a b pivot lower upper⟩

/-- A distance along one side of a square; then an end of it is deleted directly. -/
noncomputable def danglingRun : List (Op ℝ) :=
  let node (x y : ℝ) : Op ℝ := .sketch (.scene (.addNode (.ofPoint ⟨x, y⟩)))
  [node 0 0, node 1 0, node 1 1, node 0 1,
    .sketch (.declareDistance (some 0) (some 1) .none .none),
    .sketch (.scene (.deleteNode (some 1)))]

/-- The other side is bounded by the one that lost a node: the call fails, half of it done. -/
theorem declared_dangling :
    let w := (after danglingRun (empty default {} {})).toSketch
    let report := Sketch.declareDistance (some 2) (some 3) (.quantity 0) .none w
    report.outcome = .error (.nodeDeleted 0 1) ∧
      (w.declared = [0] ∧ report.state.declared = [0, 1]) ∧
      w.graph.listed = [] ∧ report.state.graph.listed = [1] ∧
      w.graph.nextSpring = 1 ∧ report.state.graph.nextSpring = 2 ∧
      (w.graph.nodes.map Node.springIds = [[], [], []] ∧
        report.state.graph.nodes.map Node.springIds = [[], [1], [1]]) :=
  ⟨rfl, ⟨rfl, rfl⟩, rfl, rfl, rfl, rfl, rfl, rfl⟩

end Linkage.Bench
