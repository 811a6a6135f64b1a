import Linkage.Proofs.Drag
import Linkage.Proofs.Sketch.Abreast
import Linkage.Proofs.Undoing

/-!
# Drags that were cancelled

A drag that is begun and cancelled between two frames leaves no trace but the id of its spring
(`Bench.traceless_after_run`). Whatever is done afterwards, the springs are called otherwise than if
there had been no drag, and nothing else is different: the benches are twins (`Bench.Twin`), and
remain twins under every operation.
-/

namespace Linkage

open Act

variable {K : Type} [Scalar K]

/-- To draw a node after the pencil makes and lists one spring, or changes nothing. -/
theorem Scene.follow_entered {w : Scene K} (h : w.Sound) (k : Key) (spot : Option (Coords K)) :
    (follow k spot).wp (fun o t => match o with
      | .error _ => t = w
      | .ok r => r = w.springs.fresh ∧ ∃ s, t = (w.makeSpring s).enlist r ∧ Entered w t s ∧
          t.springs.size = w.springs.size + 1) w := by
  unfold follow
  rw [wp_bind, wp_constants, next_ok]
  refine (enterNew_spec w _).mono fun o t => ?_
  cases o with
  | error e => exact id
  | ok r =>
    rintro ⟨rfl, s, -, hends, rfl⟩
    exact ⟨rfl, s, rfl, entered h hends, Arena.size_set.trans (Arena.size_alloc ..)⟩

namespace Bench

variable {f : Naming} {w t : Bench K} {d : Nat}

/-- Where the nodes are, and how they move. -/
def motions (w : Bench K) : List (Id × Point K × Point K) :=
  w.graph.nodes.map fun n => (n.id, n.position, n.velocity)

/-! ### Benches whose springs go by other names -/

/-- One bench under other names of springs; the spring of the drag is called alike even if it is
gone. -/
structure Twin (f : Naming) (w t : Bench K) : Prop where
  sketch : Sketch.Twin f (fun r => w.drag = some r) (fun _ => False) w.toSketch t.toSketch
  drag : t.drag = w.drag.map f.ref

namespace Twin

theorem onSketch {α : Type} {x y : Act K (Sketch K) α} (h : Twin f w t)
    (hx : Keep (Sketch.Twin f (fun r => w.drag = some r) fun _ => False) x y w.toSketch
      t.toSketch) :
    Keep (Twin f) x.onSketch y.onSketch w t :=
  hx.onPart (fun _ _ hv => ⟨hv, h.drag⟩) fun _ _ _ _ hv => ⟨hv, h.drag⟩

/-- Another drag is in progress, or none. -/
theorem redrag (h : Twin f w t) {d : Option Ref} (hd : ∀ r, d = some r → r ∈ w.graph.listed) :
    Twin f { w with drag := d } { t with drag := d.map f.ref } where
  sketch := { h.sketch with scene := h.sketch.scene.forget fun r hr => .inl (hd r hr) }
  drag := rfl

theorem letGo (h : Twin f w t) : Keep (Twin f) (Bench.letGo (K := K)) Bench.letGo w t := by
  unfold Bench.letGo
  rw [Keep, abreast_bind_read, h.drag]
  cases hd : w.drag with
  | none => exact h
  | some r =>
    refine (h.onSketch (h.sketch.keep_onScene (h.sketch.scene.expire r))).bind fun _ _ w t h => ?_
    exact h.redrag fun r hr => by cases hr

theorem grab (h : Twin f w t) (k : Key) (spot : Option (Coords K)) :
    Keep (Twin f) (Bench.grab k spot) (Bench.grab k spot) w t := by
  unfold Bench.grab
  refine h.letGo.bind fun _ _ w t h => ?_
  have hfollow : Abreast (Twin f) (fun r r' w t => r' = f.ref r ∧ r ∈ w.graph.listed ∧ Twin f w t)
      (Scene.follow k spot).onScene.onSketch (Scene.follow k spot).onScene.onSketch w t :=
    (h.sketch.made_onScene (h.sketch.scene.follow k spot)).onPart (fun _ _ hv => ⟨hv, h.drag⟩)
      fun _ _ _ _ hv => ⟨hv.1, hv.2.1, hv.2.2, h.drag⟩
  refine hfollow.bind fun r r' w t h => ?_
  obtain ⟨rfl, hr, h⟩ := h
  exact h.redrag fun s hs => by cases hs; exact hr

theorem pullTo (h : Twin f w t) (spot : Coords K) :
    Keep (Twin f) (Bench.pullTo spot) (Bench.pullTo spot) w t := by
  unfold Bench.pullTo
  rw [Keep, abreast_bind_read, h.drag]
  cases w.drag with
  | none => exact h
  | some r => exact h.onSketch (h.sketch.keep_onScene (h.sketch.scene.movePoint r spot))

theorem cancel (h : Twin f w t) : Keep (Twin f) (Bench.cancel (K := K)) Bench.cancel w t := by
  unfold Bench.cancel
  rw [Keep, abreast_bind_read, h.drag]
  cases hd : w.drag with
  | none => exact h
  | some r =>
    refine (h.onSketch (h.sketch.keep_onScene (h.sketch.scene.deleteListed (.inr hd)))).bind
      fun _ _ w t h => ?_
    exact h.redrag fun r hr => by cases hr

theorem motions (h : Twin f w t) : t.motions = w.motions := by
  unfold Bench.motions
  rw [h.sketch.scene.graph]
  show (w.graph.nodes.map _).map _ = _
  rw [List.map_map]
  rfl

end Twin

namespace Op

/-- The operation, where the springs that it names go by other names. -/
def under (f : Naming) : Op K → Op K
  | sketch o => sketch (o.under f)
  | o => o

theorem step_twin (h : Twin f w t) (o : Op K) : Twin f (o.step w) ((o.under f).step t) := by
  have hact : Keep (Twin f) o.act (o.under f).act w t := by
    cases o with
    | sketch o => exact h.onSketch (o.twin h.sketch)
    | frame dt => exact h.onSketch (h.sketch.refresh (some dt))
    | grab k spot => exact (h.grab k spot).bind fun _ _ _ _ h => h
    | pullTo spot => exact h.pullTo spot
    | letGo => exact h.letGo
    | cancel => exact h.cancel
  exact hact.state

end Op

theorem after_twin (h : Twin f w t) (ops : List (Op K)) :
    Twin f (after ops w) (after (ops.map (·.under f)) t) := by
  induction ops generalizing w t with
  | nil => exact h
  | cons o ops ih => exact ih (o.step_twin h)

/-! ### The gesture -/

/-- A drag that was begun on `w` is in progress, and nothing else has happened. -/
structure Pulled (w t : Bench K) : Prop where
  rest : t = { w with toScene := t.toScene, drag := some w.springs.fresh }
  added : Scene.Added w.toScene t.toScene [w.graph.nextSpring]
  sound : t.toScene.Sound
  id : (t.spring w.springs.fresh).id = some w.graph.nextSpring
  size : t.springs.size = w.springs.size + 1
  next : t.graph.nextSpring = w.graph.nextSpring + 1

/-- Nothing but springs was made and `d` ids were given out; what was there is there as it was. -/
structure Untouched (d : Nat) (w t : Bench K) : Prop where
  rest : t = { w with toScene := t.toScene }
  scene : Scene.Restored w.toScene t.toScene
  size : t.springs.size = w.springs.size + d
  next : t.graph.nextSpring = w.graph.nextSpring + d

theorem Untouched.refl (w : Bench K) : Untouched 0 w w :=
  ⟨rfl, ⟨rfl, Nat.le_refl _, fun _ _ => rfl⟩, rfl, (Int.add_zero _).symm⟩

/-! Without a drag there is nothing to let go, to pull or to cancel. -/

theorem letGo_idle (hd : w.drag = none) : letGo w = ⟨.ok (), w, []⟩ := by
  unfold letGo
  rw [read_bind, hd]
  rfl

theorem pullTo_idle (hd : w.drag = none) (spot : Coords K) : pullTo spot w = ⟨.ok (), w, []⟩ := by
  unfold pullTo
  rw [read_bind, hd]
  rfl

theorem cancel_idle (hd : w.drag = none) : cancel w = ⟨.ok (), w, []⟩ := by
  unfold cancel
  rw [read_bind, hd]
  rfl

/-- A drag begins exactly where its spring can be made. -/
theorem grab_outcome (hd : w.drag = none) (k : Key) (spot : Option (Coords K)) :
    (grab k spot w).outcome = (Scene.follow k spot w.toScene).outcome := by
  unfold grab
  rw [bind_apply, letGo_idle hd]
  dsimp only
  rw [bind_apply]
  show _ = ((Scene.follow k spot).onScene.onSketch w).outcome
  cases (Scene.follow k spot).onScene.onSketch w with
  | mk o u es => cases o <;> rfl

theorem grab_pulled (h : w.toSketch.Sound) (hd : w.drag = none) (k : Key)
    (spot : Option (Coords K)) :
    (grab k spot).wp (fun o t => match o with
      | .error _ => t = w
      | .ok _ => Pulled w t) w := by
  have hletGo : letGo.wp (fun o t => o = .ok () ∧ t = w) w := by
    rw [wp, letGo_idle hd]
    exact ⟨rfl, rfl⟩
  unfold grab
  rw [wp_bind]
  refine hletGo.mono fun o t => ?_
  rintro ⟨rfl, ht⟩
  rw [ht, next_ok, wp_bind, wp_onBench]
  refine (Scene.follow_entered h.scene k spot).mono fun o v => ?_
  cases o with
  | error e =>
    rintro rfl
    exact rfl
  | ok r =>
    rintro ⟨rfl, s, rfl, hv, hsize⟩
    exact ⟨rfl, hv.added, hv.onward.sound, congrArg Spring.id hv.spring, hsize, rfl⟩

theorem pullTo_pulled (h : Pulled w t) (spot : Coords K) :
    (pullTo spot).wp (fun _ u => Pulled w u) t := by
  have hdrag : t.drag = some w.springs.fresh := by rw [h.rest]
  unfold pullTo
  rw [wp_bind, wp_read, next_ok, hdrag]
  dsimp only
  rw [wp_onBench]
  unfold Scene.movePoint
  rw [wp_bind, wp_read, next_ok, wp_bind, wp_ofExcept]
  cases hm : (t.spring w.springs.fresh).movePoint spot.toPoint with
  | error e => exact h
  | ok s =>
    obtain ⟨hid, hkind, hends, -⟩ := Scene.movePoint_keeps hm
    have halike : Scene.Alike t.toScene (t.setSpring w.springs.fresh s) :=
      Scene.alike_setSpring hid hkind hends
    have hself : (t.setSpring w.springs.fresh s).spring w.springs.fresh = s := by
      refine Scene.spring_setSpring_self ?_
      rw [h.size]
      exact Nat.lt_succ_self _
    refine ⟨?_, ?_, h.sound.alike halike, ?_, ?_, h.next⟩
    · exact congrArg (fun b : Bench K => { b with toScene := t.setSpring w.springs.fresh s }) h.rest
    · refine h.added.set rfl halike.size_le (fun r hr => ?_) halike.id
      exact Scene.spring_setSpring_ne (Nat.ne_of_lt hr)
    · exact (congrArg Spring.id hself).trans (hid.trans h.id)
    · exact Arena.size_set.trans h.size

theorem cancel_pulled (hw : w.toSketch.Sound) (hd : w.drag = none) (h : Pulled w t) :
    cancel.wp (fun _ u => Untouched 1 w u) t := by
  have hdrag : t.drag = some w.springs.fresh := by rw [h.rest]
  unfold cancel
  rw [wp_bind, wp_read, next_ok, hdrag]
  dsimp only
  rw [wp_bind, wp_onBench]
  unfold Scene.deleteListed
  rw [wp_bind, wp_read, next_ok, h.id]
  refine (Scene.deleteSpring_freed h.sound w.graph.nextSpring).mono fun o v => ?_
  rintro ⟨rfl, hv⟩
  refine ⟨?_, h.added.restored hw.scene h.sound hv, ?_, ?_⟩
  · show ({ t with toScene := v, drag := none } : Bench K) = { w with toScene := v }
    rw [← hd]
    exact congrArg (fun b : Bench K => { b with toScene := v, drag := w.drag }) h.rest
  · exact (congrArg Arena.size hv.struck.springs).trans h.size
  · exact hv.struck.nextSpring.trans h.next

theorem after_pulled (h : Pulled w t) (pulls : List (Coords K)) :
    Pulled w (after (pulls.map .pullTo) t) := by
  induction pulls generalizing t with
  | nil => exact h
  | cons p pulls ih => exact ih (pullTo_pulled h p)

theorem after_idle (hd : w.drag = none) (pulls : List (Coords K)) :
    after (pulls.map .pullTo) w = w := by
  induction pulls with
  | nil => rfl
  | cons p pulls ih =>
    have hstep : (Op.pullTo p).step w = w := congrArg Report.state (pullTo_idle hd p)
    show after (pulls.map .pullTo) ((Op.pullTo p).step w) = w
    rw [hstep, ih]

/-- Where no drag could begin, there is nothing to cancel. -/
theorem after_gesture (h : w.toSketch.Sound) (hd : w.drag = none) (k : Key)
    (spot : Option (Coords K)) (pulls : List (Coords K)) :
    ∃ d ≤ 1, ((∃ r, (grab k spot w).outcome = .ok r) → d = 1) ∧
      Untouched d w (after (.grab k spot :: pulls.map .pullTo ++ [.cancel]) w) := by
  have hgrab := grab_pulled h hd k spot
  have hstep : (Op.grab k spot).step w = (grab k spot w).state := by
    show ((grab k spot >>= fun _ => pure ()) w).state = _
    rw [bind_apply]
    split <;> rfl
  have hafter : after (.grab k spot :: pulls.map .pullTo ++ [.cancel]) w =
      Op.cancel.step (after (pulls.map .pullTo) (grab k spot w).state) := by
    rw [← hstep]
    exact List.foldl_concat ..
  rw [hafter]
  unfold wp at hgrab
  cases ho : (grab k spot w).outcome with
  | error e =>
    rw [ho] at hgrab
    have hcancel : Op.cancel.step w = w := congrArg Report.state (cancel_idle hd)
    rw [hgrab, after_idle hd, hcancel]
    exact ⟨0, Nat.zero_le _, nofun, .refl w⟩
  | ok r =>
    rw [ho] at hgrab
    exact ⟨1, Nat.le_refl _, fun _ => rfl, cancel_pulled h hd (after_pulled hgrab pulls)⟩

end Bench

/-! ### Names that were passed over -/

theorem skip_ref_inj {m d r s : Nat}
    (h : (if r < m then r else r + d) = if s < m then s else s + d) : r = s := by
  split at h <;> split at h <;> omega

theorem skip_id_inj {n i j : Int} {d : Nat}
    (h : (if i < n then i else i + d) = if j < n then j else j + d) : i = j := by
  split at h <;> split at h <;> omega

/-- Springs that are made after `m` others, and ids from `n` on, are called `d` further on. -/
def Naming.skip (m : Ref) (n : Id) (d : Nat) : Naming where
  ref r := if r < m then r else r + d
  id i := if i < n then i else i + d
  ref_inj _ _ := skip_ref_inj
  id_inj _ _ := skip_id_inj

section

variable {m r : Ref} {n i : Id} {d : Nat}

theorem skip_ref_of_lt (h : r < m) : (Naming.skip m n d).ref r = r := if_pos h

theorem skip_ref_of_le (h : m ≤ r) : (Naming.skip m n d).ref r = r + d := if_neg (Nat.not_lt.2 h)

theorem skip_id_of_lt (h : i < n) : (Naming.skip m n d).id i = i := if_pos h

theorem skip_id_of_le (h : n ≤ i) : (Naming.skip m n d).id i = i + d := if_neg (Int.not_lt.2 h)

theorem map_skip_id {is : List Id} (h : ∀ i ∈ is, i < n) : is.map (Naming.skip m n d).id = is :=
  (List.map_congr_left fun i hi => skip_id_of_lt (h i hi)).trans (List.map_id is)

end

/-! ### Operations that name no spring

An operation on springs names one, or it finds out itself which there are. -/

/-- The operation names no id of a spring, and no spring but the first `m`. -/
def Scene.Op.Anonymous (m : Ref) : Scene.Op K → Prop
  | enterSpring r | movePoint r _ | boundSpring r _ _ | expire r => r < m
  | elsewhere r s => r < m ∧ s.id = none
  | deleteSpring k => k = none
  | _ => True

omit [Scalar K] in
theorem Scene.Op.Anonymous.under {o : Scene.Op K} {m : Ref} (h : o.Anonymous m) (n : Id) (d : Nat) :
    o.under (.skip m n d) = o := by
  cases o with
  | enterSpring r => exact congrArg enterSpring (skip_ref_of_lt h)
  | movePoint r spot => exact congrArg (movePoint · spot) (skip_ref_of_lt h)
  | boundSpring r lower upper => exact congrArg (boundSpring · lower upper) (skip_ref_of_lt h)
  | expire r => exact congrArg expire (skip_ref_of_lt h)
  | deleteSpring k => exact congrArg deleteSpring ((congrArg (Option.map _) h).trans h.symm)
  | elsewhere r s =>
    have hs : { s with id := (Naming.skip m n d).key s.id } = s := by
      rw [h.2]
      exact congrArg (fun k => { s with id := k }) h.2.symm
    show elsewhere _ _ = _
    rw [hs, skip_ref_of_lt h.1]
  | _ => rfl

def Bench.Op.Anonymous (m : Ref) : Bench.Op K → Prop
  | sketch (.scene o) => o.Anonymous m
  | _ => True

omit [Scalar K] in
theorem Bench.Op.Anonymous.under {o : Bench.Op K} {m : Ref} (h : o.Anonymous m) (n : Id) (d : Nat) :
    o.under (.skip m n d) = o := by
  cases o with
  | sketch o =>
    cases o with
    | scene o => exact congrArg (fun o => sketch (.scene o)) (Scene.Op.Anonymous.under h n d)
    | _ => rfl
  | _ => rfl

/-! ### The bench that the drag leaves -/

/-- A scene where springs were added and struck out again, and the same under other names. -/
theorem Scene.Restored.twin {w t : Scene K} {d : Nat} (h : Restored w t) (hw : w.Sound)
    (hsize : t.springs.size = w.springs.size + d)
    (hnext : t.graph.nextSpring = w.graph.nextSpring + d) :
    Twin (.skip w.springs.size w.graph.nextSpring d) (fun _ => False) w t := by
  let f : Naming := .skip w.springs.size w.graph.nextSpring d
  have hnodes : w.graph.nodes.map (·.under f) = w.graph.nodes := by
    refine (List.map_congr_left fun n hn => ?_).trans (List.map_id _)
    have hids : n.springIds.map f.id = n.springIds := map_skip_id fun i hi => by
      obtain ⟨r, hr, hi⟩ := (hw.mem_springIds hn).1 hi
      obtain ⟨j, hj, hlt⟩ := hw.spring_lt r (mem_touching.1 hr).1
      exact Option.some.inj (hj.symm.trans hi) ▸ hlt
    show { n with springIds := n.springIds.map f.id } = n
    rw [hids]
  have hlisted : w.graph.listed.map f.ref = w.graph.listed :=
    (List.map_congr_left fun r hr => skip_ref_of_lt (hw.listed_lt r hr)).trans (List.map_id _)
  have hcount : f.id w.graph.nextSpring = t.graph.nextSpring :=
    (skip_id_of_le (Int.le_refl _)).trans hnext.symm
  refine ⟨?_, fun j => ?_, fun j => ?_, fun r => ?_, fun r hr => ?_⟩
  · rw [h.graph]
    unfold Graph.under
    rw [hnodes, hlisted, hcount]
  · rw [skip_ref_of_le (Nat.le_add_right _ _), hsize]
    exact Nat.add_right_comm _ _ _
  · rw [skip_id_of_le (Int.le_add_of_nonneg_right (Int.natCast_nonneg _)),
      skip_id_of_le (Int.le_refl _)]
    exact Int.add_right_comm _ _ _
  · by_cases hr : r < w.springs.size
    · rw [skip_ref_of_lt hr, h.spring r hr]
      exact ⟨(w.spring r).id, rfl⟩
    · have hr := Nat.not_lt.1 hr
      have hold : w.spring r = default := Arena.get_of_size_le hr
      have hnew : t.spring (r + d) = default :=
        Arena.get_of_size_le (hsize ▸ Nat.add_le_add_right hr d)
      rw [skip_ref_of_le hr, hold, hnew]
      exact ⟨none, rfl⟩
  · have hr : r ∈ w.graph.listed := hr.resolve_right id
    obtain ⟨i, hi, hlt⟩ := hw.spring_lt r hr
    rw [skip_ref_of_lt (hw.listed_lt r hr), h.spring r (hw.listed_lt r hr), hi]
    exact congrArg some (skip_id_of_lt hlt).symm

namespace Bench

variable {w t : Bench K} {d : Nat}

/-- What is done next cannot tell whether there was a drag. -/
theorem Untouched.twin (h : Untouched d w t) (hw : w.toSketch.Sound) (hd : w.drag = none) :
    Twin (.skip w.springs.size w.graph.nextSpring d) w t := by
  have hscene := h.scene.twin hw.scene h.size h.next
  have hquantity : ∀ r, t.quantity r = w.quantity r := fun r => by rw [h.rest]; rfl
  refine ⟨⟨hscene.forget fun r hr => ?_, ?_, ?_, ?_, fun r hr => ?_, fun r => ?_, fun r hr => ?_⟩,
    ?_⟩
  · cases hd.symm.trans hr
  · rw [h.rest]
  · rw [h.rest]
  · rw [h.rest]
  · exact hw.declared_lt r (hr.resolve_right id)
  · rw [hquantity]
  · have hr : r ∈ w.declared := hr.resolve_right id
    have hids : ∀ i ∈ (w.quantity r).springIds, i < w.graph.nextSpring := fun i hi =>
      hw.owned_lt r i ⟨hr, hi⟩
    have hcaptives : (w.quantity r).captives.map
        (fun c => (c.1, (Naming.skip w.springs.size w.graph.nextSpring d).id c.2)) =
          (w.quantity r).captives := by
      refine (List.map_congr_left fun c hc => ?_).trans (List.map_id _)
      have hrail := (Quantity.proper_rail ((hw.proper r hr).rail_of_mem hc)).1 (hw.proper r hr)
      have hlt := hids c.2 (hrail.1 ▸ List.mem_map_of_mem hc)
      show (c.1, Naming.id _ c.2) = c
      rw [skip_id_of_lt hlt]
    rw [hquantity]
    unfold Quantity.under
    rw [map_skip_id hids, hcaptives]
  · rw [h.rest, hd]
    rfl

/-- After every run, a drag of a node that is begun, pulled anywhere and cancelled leaves nothing
but an id that was given out. Nodes then move, whatever is done, as they do without the drag, where
the springs that are named later on go by one more; and if none of these is named, they move alike
under the same operations. -/
theorem traceless_after_run (c : Config K) (springs : Arena (Spring K))
    (quantities : Arena (Quantity K)) (ops : List (Op K)) (k : Key) (spot : Option (Coords K))
    (pulls : List (Coords K)) :
    let w := after ops (empty c springs quantities)
    let t := after (.grab k spot :: pulls.map .pullTo ++ [.cancel]) w
    w.drag = none → ∃ d ≤ 1,
      (w.isNode k → (∃ p, spot = some p ∧ p.Reads) → d = 1) ∧
      Untouched d w t ∧
      (∀ later, let later' := later.map (·.under (.skip w.springs.size w.graph.nextSpring d))
        (after later' t).motions = (after later w).motions) ∧
      ∀ later, (∀ o ∈ later, o.Anonymous w.springs.size) →
        (after later t).motions = (after later w).motions := by
  intro w t hd
  have hw : w.toSketch.Sound := sound_after c springs quantities ops
  have hconfig : w.graph.config = c :=
    (after_onward (Sketch.sound_empty c springs quantities) ops).scene.config
  obtain ⟨d, hle, hone, ht⟩ := after_gesture hw hd k spot pulls
  have hlater : ∀ later,
      (after (later.map (·.under (.skip w.springs.size w.graph.nextSpring d))) t).motions =
        (after later w).motions := fun later => (after_twin (ht.twin hw hd) later).motions
  refine ⟨d, hle, fun hk hspot => hone ?_, ht, hlater, fun later hnames => ?_⟩
  · rw [grab_outcome hd]
    cases ho : (Scene.follow k spot w.toScene).outcome with
    | ok r => exact ⟨r, rfl⟩
    | error e =>
      rcases ((Scene.follow_refused w.toScene k spot).error e ho).1 with h | h
      · exact absurd hk h
      · exact absurd hspot h
  · have hsame : later.map (·.under (.skip w.springs.size w.graph.nextSpring d)) = later :=
      (List.map_congr_left fun o ho => (hnames o ho).under _ d).trans (List.map_id later)
    rw [← hlater later, hsame]

/-- A node is pinned. -/
noncomputable def pinRun : List (Op ℝ) :=
  [.sketch (.scene (.addNode (.ofPoint ⟨0, 0⟩))), .sketch (.scene (.pin (some 0) none))]

/-- It is drawn away and put back, and later on it is set free and drawn away in earnest. -/
theorem traceless_pinned :
    let w := after pinRun (empty default {} {})
    let t := after [.grab (some 0) (some (.ofPoint ⟨1, 0⟩)), .pullTo (.ofPoint ⟨2, 0⟩), .cancel] w
    let later : List (Op ℝ) := [.sketch (.scene (.expire 0)),
      .grab (some 0) (some (.ofPoint ⟨1, 0⟩)), .frame 1]
    w.drag = none ∧ t.graph = { w.graph with nextSpring := 2 } ∧ w.graph.nextSpring = 1 ∧
      (after later t).motions = (after later w).motions := by
  intro w t later
  have hd : w.drag = none := rfl
  have hnext : w.graph.nextSpring = 1 := rfl
  have hsize : w.springs.size = 1 := rfl
  have hnode : w.isNode (some 0) := rfl
  have hnames : ∀ o ∈ later, o.Anonymous w.springs.size := by
    intro o ho
    simp only [later, List.mem_cons, List.not_mem_nil, or_false] at ho
    rcases ho with rfl | rfl | rfl
    · exact hsize ▸ Nat.one_pos
    · trivial
    · trivial
  have hdrag := traceless_after_run default {} {} pinRun (some 0) (some (.ofPoint ⟨1, 0⟩))
    [.ofPoint ⟨2, 0⟩] hd
  obtain ⟨d, -, hone, ht, -, hlater⟩ := hdrag
  have hone : d = 1 := hone hnode ⟨_, rfl, _, rfl⟩
  have ht : Untouched 1 w t := hone ▸ ht
  have hcount : t.graph.nextSpring = 2 := by
    rw [ht.next, hnext]
    rfl
  have hgraph : t.graph = { w.graph with nextSpring := 2 } := hcount ▸ ht.scene.graph
  exact ⟨hd, hgraph, hnext, hlater later hnames⟩

end Bench

end Linkage
