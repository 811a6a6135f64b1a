import Linkage.Bench
import Linkage.Proofs.Settings
import Linkage.Proofs.Sketch.Run

/-!
# Runs of a bench

Somebody drags nodes and frames go by while the sketch is worked on. Whatever was done, the sketch
stays sound (`after_onward`), and the next refresh sets every spring for the places that the nodes
have when it begins (`refreshed_after_run`).
-/

namespace Linkage.Bench

open Act

variable {K : Type} [Scalar K] {w t : Bench K}

inductive Op (K : Type) where
  | sketch (o : Sketch.Op K)
  | frame (dt : K)
  | grab (k : Key) (spot : Option (Coords K))
  | pullTo (spot : Coords K)
  | letGo
  | cancel

namespace Op

def act : Op K → Act K (Bench K) Unit
  | sketch o => o.act.onSketch
  | frame dt => Bench.frame dt
  | grab k spot => do let _ ← Bench.grab k spot
  | pullTo spot => Bench.pullTo spot
  | letGo => Bench.letGo
  | cancel => Bench.cancel

/-- The bench that is left when the operation has ended, be it by a failure. -/
def step (o : Op K) (w : Bench K) : Bench K := (o.act w).state

end Op

def after (ops : List (Op K)) (w : Bench K) : Bench K := ops.foldl (fun w o => o.step w) w

theorem after_concat (ops : List (Op K)) (o : Op K) (w : Bench K) :
    after (ops ++ [o]) w = o.step (after ops w) :=
  List.foldl_concat ..

/-! ### Soundness -/

/-- An action on the scene that keeps the bounds of rails' springs leaves a sound sketch if it
leaves a sound scene. -/
theorem onScene_shrunk {α : Type} {x : Act K (Scene K) α} (h : w.toSketch.Sound)
    (hx : x.wp (fun _ v => Scene.Onward w.toScene v ∧ Scene.Spared w.toScene v) w.toScene) :
    x.onScene.onSketch.wp (fun _ t => Sketch.Shrunk w.toSketch t.toSketch) w :=
  hx.mono fun _ _ hv => Sketch.shrunk_withScene h hv.1 hv.2

/-- The end of an operation that does not touch the sketch. -/
theorem shrunk_finish {α β : Type} {x : Act K (Bench K) α} {f : α → Act K (Bench K) β}
    (hx : x.wp (fun _ t => Sketch.Shrunk w.toSketch t.toSketch) w)
    (hf : ∀ a t, (f a).wp (fun _ t' => t'.toSketch = t.toSketch) t) :
    (x >>= f).wp (fun _ t => Sketch.Shrunk w.toSketch t.toSketch) w :=
  wp_bind_keep hx fun a t ht => (hf a t).mono fun _ _ e => e ▸ ht

theorem letGo_shrunk (h : w.toSketch.Sound) :
    letGo.wp (fun _ t => Sketch.Shrunk w.toSketch t.toSketch) w := by
  unfold letGo
  rw [wp_bind, wp_read, next_ok]
  split
  · exact .refl h
  · next r _ =>
    refine shrunk_finish (onScene_shrunk h ?_) fun _ t => by
      simp only [wp_bind, wp_report, next_ok, wp_change]
    have halike := Scene.expire_alike w.toScene r
    exact (halike.mono fun _ _ => (Scene.Onward.refl h.scene).alike).and (Scene.expire_spared _ r)

theorem grab_shrunk (h : w.toSketch.Sound) (k : Key) (spot : Option (Coords K)) :
    (grab k spot).wp (fun _ t => Sketch.Shrunk w.toSketch t.toSketch) w := by
  unfold grab
  refine wp_bind_keep (letGo_shrunk h) fun _ t ht => ?_
  refine (shrunk_finish (onScene_shrunk ht.sound ?_) fun _ t => by
    simp only [wp_bind, wp_report, next_ok, wp_change, wp_pure]).mono fun _ _ => ht.trans
  exact (Scene.follow_onward ht.sound.scene k spot).and (Scene.follow_spared _ k spot)

theorem pullTo_shrunk (h : w.toSketch.Sound) (spot : Coords K) :
    (pullTo spot).wp (fun _ t => Sketch.Shrunk w.toSketch t.toSketch) w := by
  unfold pullTo
  rw [wp_bind, wp_read, next_ok]
  split
  · exact .refl h
  · next r _ =>
    have halike := Scene.movePoint_alike w.toScene r spot
    exact onScene_shrunk h ((halike.mono fun _ _ => (Scene.Onward.refl h.scene).alike).and
      (Scene.movePoint_spared _ r spot))

theorem cancel_shrunk (h : w.toSketch.Sound) :
    cancel.wp (fun _ t => Sketch.Shrunk w.toSketch t.toSketch) w := by
  unfold cancel
  rw [wp_bind, wp_read, next_ok]
  split
  · exact .refl h
  · refine shrunk_finish (onScene_shrunk h ?_) fun _ t => by
      simp only [wp_bind, wp_report, next_ok, wp_change]
    exact (Scene.deleteListed_onward h.scene _).mono fun _ _ ht => ⟨ht.2.1, ht.2.2.spared⟩

/-- Only an operation on the sketch can make something be owned newly. -/
theorem Op.step_cases (h : w.toSketch.Sound) (o : Op K) :
    (∃ o' : Sketch.Op K, o = .sketch o' ∧ (o.step w).toSketch = o'.step w.toSketch) ∨
      Sketch.Shrunk w.toSketch (o.step w).toSketch := by
  cases o with
  | sketch o => exact .inl ⟨o, rfl, rfl⟩
  | frame dt => exact .inr (Sketch.refresh_shrunk h (some dt))
  | grab k spot => exact .inr (wp_bind_keep (grab_shrunk h k spot) fun _ _ ht => ht)
  | pullTo spot => exact .inr (pullTo_shrunk h spot)
  | letGo => exact .inr (letGo_shrunk h)
  | cancel => exact .inr (cancel_shrunk h)

theorem Op.step_onward (h : w.toSketch.Sound) (o : Op K) :
    Sketch.Onward w.toSketch (o.step w).toSketch := by
  rcases o.step_cases h with ⟨o', -, e⟩ | ho
  · rw [e]
    exact o'.step_onward h
  · exact ho.toOnward

theorem after_onward (h : w.toSketch.Sound) (ops : List (Op K)) :
    Sketch.Onward w.toSketch (after ops w).toSketch := by
  induction ops generalizing w with
  | nil => exact .refl h
  | cons o ops ih =>
    have ho := o.step_onward h
    exact ho.trans (ih ho.sound)

/-! ### The play of rails -/

/-- No operation of the run sets the bounds of a spring that a rail owns when it is its turn. -/
def Sparing (ops : List (Op K)) (w : Bench K) : Prop :=
  ∀ pre o post, ops = pre ++ .sketch o :: post → o.Sparing (after pre w).toSketch

theorem after_tight (h : w.toSketch.Sound) (hw : w.Tight) (ops : List (Op K))
    (hops : Sparing ops w) : (after ops w).Tight := by
  induction ops generalizing w with
  | nil => exact hw
  | cons o ops ih =>
    have ho : (o.step w).Tight := by
      rcases o.step_cases h with ⟨o', rfl, e⟩ | ho
      · rw [e]
        exact o'.step_tight h hw (hops [] o' ops rfl)
      · exact hw.shrunk h ho
    refine ih (o.step_onward h).sound ho fun pre o' post e => ?_
    exact hops (o :: pre) o' post (by rw [e, List.cons_append])

/-! ### Refreshing after a run -/

/-- A bench with nothing on it, whatever springs and quantities there are elsewhere. -/
def empty (c : Config K) (springs : Arena (Spring K)) (quantities : Arena (Quantity K)) : Bench K :=
  { springs := springs, graph := { config := c }, quantities := quantities }

/-- A bench opens under settings that are fit for use, and under no others; it is empty then. -/
theorem openBench_spec (c : Settings K) (w : Bench K) :
    (openBench c).wp (fun o t => (o = .ok () ↔ c.Fit) ∧
      (o = .ok () → t = empty c.toConfig w.springs w.quantities)) w := by
  unfold openBench openGraph openSketch
  simp only [wp_bind, wp_report, next_ok, wp_ofExcept]
  cases hc : c.checked with
  | error e =>
    refine ⟨iff_of_false (fun e => by cases e) fun hfit => ?_, fun e => by cases e⟩
    cases hc.symm.trans (Settings.checked_eq_ok_iff.2 ⟨hfit, rfl⟩)
  | ok c' =>
    obtain ⟨hfit, rfl⟩ := Settings.checked_eq_ok_iff.1 hc
    exact ⟨iff_of_true rfl hfit, fun _ => rfl⟩

theorem sound_after (c : Config K) (springs : Arena (Spring K)) (quantities : Arena (Quantity K))
    (ops : List (Op K)) : (after ops (empty c springs quantities)).toSketch.Sound :=
  (after_onward (Sketch.sound_empty c springs quantities) ops).sound

theorem config_after (c : Config K) (springs : Arena (Spring K)) (quantities : Arena (Quantity K))
    (ops : List (Op K)) : (after ops (empty c springs quantities)).graph.config = c :=
  (after_onward (Sketch.sound_empty c springs quantities) ops).scene.config

/-- Every quantity is declared over its own nodes and no others. -/
theorem bare_after (c : Config K) (springs : Arena (Spring K)) (quantities : Arena (Quantity K))
    (ops : List (Op K)) : (after ops (empty c springs quantities)).toSketch.Bare :=
  (after_onward (Sketch.sound_empty c springs quantities) ops).bare (Sketch.bare_empty _ _ _)

/-- A frame is one of the scene, once the quantities are refreshed. -/
theorem frame_refreshed (h : w.toSketch.Sound) (dt : K) :
    let t := ((Sketch.refresh none).onSketch w).state
    (frame dt w).outcome = (Scene.advance dt t.toScene).outcome ∧
      (frame dt w).state.toSketch = t.toSketch.withScene (Scene.advance dt t.toScene).state := by
  intro t
  have hok : (Sketch.refresh none w.toSketch).outcome = .ok () := (Sketch.refresh_none h).1
  show (Sketch.refresh (some dt) w.toSketch).outcome = _ ∧
    (Sketch.refresh (some dt) w.toSketch).state = _
  rw [Sketch.refresh_some, bind_apply_ok hok]
  exact ⟨rfl, rfl⟩

/-- After every run, a refresh with or without a frame, and whether or not the frame succeeds, sets
the springs for the places that the nodes had before it; it would set them alike if the quantities
were listed in another order. Without a frame it succeeds, moves nothing, and done once more it
changes nothing at all. -/
theorem refreshed_after_run (c : Config K) (springs : Arena (Spring K))
    (quantities : Arena (Quantity K)) (ops : List (Op K)) (dt : Option K) :
    let w := after ops (empty c springs quantities)
    let refreshed (dt : Option K) (w : Bench K) : Bench K := ((Sketch.refresh dt).onSketch w).state
    Sketch.Refreshed w.toSketch (refreshed dt w).toSketch ∧
      (∀ d, (frame d w).state = refreshed (some d) w) ∧
      (∀ l, l.Perm w.declared → ∀ s,
        Sketch.SameSetting ((refreshed dt w).spring s)
          ((refreshed dt { w with toSketch := w.relist l }).spring s)) ∧
      ((Sketch.refresh none).onSketch w).outcome = .ok () ∧
      (((refreshed none w).graph.nodes.map fun n => (n.id, n.position, n.velocity)) =
        w.graph.nodes.map fun n => (n.id, n.position, n.velocity)) ∧
      ((Sketch.refresh none).onSketch (refreshed none w)).outcome = .ok () ∧
      refreshed none (refreshed none w) = refreshed none w := by
  intro w refreshed
  have h : w.toSketch.Sound := sound_after c springs quantities ops
  obtain ⟨hok, hsound, ⟨htidy, hsettled⟩, hplaces⟩ := Sketch.refresh_none h
  obtain ⟨hok', hsame⟩ := Sketch.refresh_settled hsound htidy hsettled
  refine ⟨Sketch.refresh_refreshed h dt, fun _ => rfl, fun l hl s => ?_, hok, hplaces, hok', ?_⟩
  · have hr := h.relist hl
    exact Sketch.Refreshed.perm h hl (Sketch.refresh_refreshed h dt)
      (Sketch.refresh_refreshed hr dt) (Sketch.refresh_shrunk h dt).sound
      (Sketch.refresh_shrunk hr dt).sound s
  · exact congrArg (fun s : Sketch K => { refreshed none w with toSketch := s }) hsame

end Linkage.Bench
