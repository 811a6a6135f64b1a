import Linkage.Proofs.Striking
import Linkage.Proofs.Supply

/-!
# Drags

A bench keeps the spring of the drag in progress by reference, next to the list that the spring
stands in. `Op.step_drag` says what one operation does to the two of them: the drag goes on, or it
is over and its spring is expired or gone, or it is over and another one has begun.

So no drag leaves a spring behind for longer than a frame (`dropped_after_run`), and the bench is
dragging as long as the spring of the last drag is there (`drag_after_run`). It does not notice when
that spring is deleted by its id or with its node: then the drag goes on without it (`Lost`).
-/

namespace Linkage

open Act

variable {K : Type} [Scalar K]

omit [Scalar K] in
theorem Spring.b_mem_endpoints (s : Spring K) : s.b ∈ s.endpoints := by
  unfold endpoints
  split <;> simp

/-! ### Springs after the pencil -/

namespace Scene

variable {w t : Scene K} {made : List Ref} {current : Option Ref} {r : Ref} {S E : Ref → Prop}

theorem build_followPencil {c : Option (Constants K)} {k : Key} {spot : Option (Coords K)}
    {s : Spring K} (h : (SpringSpec.followPencil c k spot).build = .ok s) :
    s.kind = .followPencil ∧ s.expired = false := by
  unfold SpringSpec.build SpringSpec.followPencil SpringSpec.held at h
  cases spot with
  | none => cases h
  | some p =>
    obtain ⟨a, -, h⟩ := bind_eq_ok_iff.1 h
    obtain ⟨-, -, h⟩ := bind_eq_ok_iff.1 h
    cases h
    exact ⟨rfl, rfl⟩

/-- The node is drawn by a new spring, or nothing happened. -/
theorem follow_spec (h : w.Sound) (k : Key) (spot : Option (Coords K)) :
    (follow k spot).wp (fun o t => match o with
      | .error _ => t = w
      | .ok r => r ∈ t.graph.listed ∧ (t.spring r).kind = .followPencil ∧
          (t.spring r).expired = false) w := by
  unfold follow
  rw [wp_bind, wp_constants, next_ok]
  refine (enterNew_spec w _).mono fun o t => ?_
  cases o with
  | error e => exact id
  | ok r =>
    rintro ⟨rfl, s, hs, hend, rfl⟩
    have he := entered h hend
    obtain ⟨hk, hx⟩ := build_followPencil hs
    refine ⟨(of_springRef?_eq_some he.named).1, ?_⟩
    rw [he.spring]
    exact ⟨hk, hx⟩

theorem deleteListed_gone (h : w.Sound) (r : Ref) :
    (deleteListed r).wp (fun o t => o = .ok () ∧ r ∉ t.graph.listed) w := by
  by_cases hr : r ∈ w.graph.listed
  · refine (deleteListed_spec h hr).mono fun o t => ?_
    rintro ⟨rfl, hl⟩
    exact ⟨rfl, by simp [hl]⟩
  · refine (deleteListed_onward h r).mono fun o t => ?_
    rintro ⟨rfl, -, hst⟩
    exact ⟨rfl, fun hmem => hr (hst.listed.subset hmem)⟩

/-! ### What drags have left behind -/

/-- `made` are the springs of all drags, `current` is the one of the drag in progress. The others
are expired or gone, and their ids are nobody else's. -/
structure Drags (made : List Ref) (current : Option Ref) (w : Scene K) : Prop where
  lt : ∀ r ∈ made, r < w.springs.size
  named : ∀ r ∈ made, ∃ i, (w.spring r).id = some i ∧ i < w.graph.nextSpring ∧
    ∀ s ∈ w.graph.listed, (w.spring s).id = some i → s = r
  mem : ∀ r, current = some r → r ∈ made
  rest : ∀ r ∈ made, r ∈ w.graph.listed → current ≠ some r → (w.spring r).expired = true

namespace Drags

theorem lasting (h : Drags made current w) (ht : Lasting S E w t) (ho : Later w t)
    (hS : ∀ r ∈ made, ¬ S r) : Drags made current t where
  lt r hr := Nat.lt_of_lt_of_le (h.lt r hr) ht.size_le
  named r hr := by
    obtain ⟨i, hi, hlt, hown⟩ := h.named r hr
    refine ⟨i, (ht.id r (h.lt r hr) (hS r hr)).trans hi, Int.lt_of_lt_of_le hlt ho.nextSpring_le,
      fun s hs hid => ?_⟩
    obtain ⟨hsw, hidw, -⟩ := ho.spring s hs i hid hlt
    exact hown s hsw hidw
  mem := h.mem
  rest r hr hrt hne := by
    obtain ⟨hrw, -, -, -, hx⟩ := ht.listed r hrt (h.lt r hr) (hS r hr)
    rcases hx with hx | ⟨-, hx⟩
    · exact hx.trans (h.rest r hr hrw hne)
    · exact hx

/-- The drag in progress is over. -/
theorem ended (h : Drags made current w)
    (hx : ∀ r, current = some r → r ∈ w.graph.listed → (w.spring r).expired = true) :
    Drags made none w where
  lt := h.lt
  named := h.named
  mem r hr := by cases hr
  rest r hr hrw _ := by
    by_cases hc : current = some r
    · exact hx r hc hrw
    · exact h.rest r hr hrw hc

/-- Another drag has begun. -/
theorem begun (h : Drags made none w) (hw : w.Sound) (hr : r ∈ w.graph.listed) :
    Drags (made ++ [r]) (some r) w where
  lt s hs := by
    rcases List.mem_append.1 hs with hs | hs
    · exact h.lt s hs
    · exact List.mem_singleton.1 hs ▸ hw.listed_lt r hr
  named s hs := by
    rcases List.mem_append.1 hs with hs | hs
    · exact h.named s hs
    · obtain rfl := List.mem_singleton.1 hs
      obtain ⟨i, hi, hlt⟩ := hw.spring_lt s hr
      exact ⟨i, hi, hlt, fun s' hs' hi' => hw.eq_of_id_eq hs' hr (hi'.trans hi.symm)⟩
  mem s hs := by
    cases hs
    exact List.mem_append_right _ (List.mem_singleton_self _)
  rest s hs hsw hne := by
    rcases List.mem_append.1 hs with hs | hs
    · exact h.rest s hs hsw fun e => by cases e
    · exact absurd (congrArg some (List.mem_singleton.1 hs).symm) hne

/-- What is not listed has left no id at a node. -/
theorem not_attached (h : Drags made current w) (hw : w.Sound) (hr : r ∈ made)
    (hrw : r ∉ w.graph.listed) {n : Node K} (hn : n ∈ w.graph.nodes) {i : Id}
    (hi : (w.spring r).id = some i) : i ∉ n.springIds := by
  intro hmem
  obtain ⟨j, hj, -, hown⟩ := h.named r hr
  cases hi.symm.trans hj
  obtain ⟨s, hs, hid⟩ := (hw.mem_springIds hn).1 hmem
  have hsw : s ∈ w.graph.listed := (mem_touching.1 hs).1
  exact hrw (hown s hsw hid ▸ hsw)

end Drags

end Scene

namespace Bench

variable {w t : Bench K} {r : Ref}

/-! ### One operation -/

namespace Op

/-- The spring of the drag that the operation begins. -/
def grabs : Op K → Bench K → Option Ref
  | grab k spot, w => (Bench.grab k spot w).outcome.toOption
  | _, _ => none

/-- The drag in progress goes on. -/
def Steady : Op K → Prop
  | grab _ _ | letGo | cancel => False
  | _ => True

def Expires : Op K → Ref → Prop
  | sketch o, r => o.Expires r
  | _, _ => False

/-- The spring is listed or expired by hand. -/
def Handles (o : Op K) (w : Bench K) (r : Ref) : Prop := o.Lists w r ∨ o.Expires r

def Strikes : Op K → Bench K → Ref → Prop
  | sketch o, w, r => o.Strikes w.toSketch r
  | _, _, _ => False

end Op

/-- The drag that was in progress is over, and its spring is expired or gone. -/
structure Released (w t : Bench K) : Prop where
  lasting : Sketch.Lasting (fun _ => False) (fun r => w.drag = some r) w.toSketch t.toSketch
  expired : ∀ r, w.drag = some r → r ∈ t.graph.listed → (t.spring r).expired = true

theorem Released.of_idle (h : w.drag = none) : Released w w :=
  ⟨Scene.Lasting.refl _, fun r hr => by cases h.symm.trans hr⟩

omit [Scalar K] in
theorem wp_onBench {α : Type} {Q : Except (Failure K) α → Bench K → Prop}
    (x : Act K (Scene K) α) :
    x.onScene.onSketch.wp Q w ↔ x.wp (fun o v => Q o { w with toScene := v }) w.toScene :=
  Iff.rfl

theorem letGo_released (h : w.toSketch.Sound) :
    letGo.wp (fun o t => o = .ok () ∧ t.drag = none ∧ Released w t) w := by
  unfold letGo
  rw [wp_bind, wp_read, next_ok]
  cases hd : w.drag with
  | none => exact ⟨rfl, hd, .of_idle hd⟩
  | some r =>
    refine ⟨rfl, rfl, .setSpring rfl rfl rfl rfl (.inr ⟨hd, rfl⟩), fun r' hr' hmem => ?_⟩
    cases hd.symm.trans hr'
    exact congrArg Spring.expired (Scene.spring_setSpring_self (h.scene.listed_lt r hmem))

theorem cancel_released (h : w.toSketch.Sound) :
    cancel.wp (fun o t => o = .ok () ∧ t.drag = none ∧ Released w t) w := by
  unfold cancel
  rw [wp_bind, wp_read, next_ok]
  cases hd : w.drag with
  | none => exact ⟨rfl, hd, .of_idle hd⟩
  | some r =>
    rw [wp_bind, wp_onBench]
    refine ((Scene.deleteListed_lasting (S := fun _ => False)
      (E := fun r => w.drag = some r) r w.toScene).and
      (Scene.deleteListed_gone h.scene r)).mono fun o v => ?_
    rintro ⟨hv, rfl, hr⟩
    refine ⟨rfl, rfl, hv, fun r' hr' hmem => ?_⟩
    cases hd.symm.trans hr'
    exact absurd hmem hr

/-- The drag in progress is over in any case, and another one has begun unless that fails. -/
theorem grab_spec (h : w.toSketch.Sound) (hd : ∀ r, w.drag = some r → r < w.springs.size) (k : Key)
    (spot : Option (Coords K)) :
    (grab k spot).wp (fun o t => Released w t ∧ match o with
      | .error _ => t.drag = none
      | .ok r => t.drag = some r ∧ r ∈ t.graph.listed ∧ (t.spring r).kind = .followPencil ∧
          (t.spring r).expired = false) w := by
  unfold grab
  rw [wp_bind]
  refine ((letGo_shrunk h).and (letGo_released h)).mono fun o u => ?_
  rintro ⟨hu, rfl, hdu, hrel⟩
  rw [next_ok, wp_bind, wp_onBench]
  refine ((Scene.follow_spec hu.sound.scene k spot).and (Scene.follow_lasting (S := fun _ => False)
    (E := fun r => w.drag = some r) k spot u.toScene)).mono fun o v => ?_
  rintro ⟨hv, hlast⟩
  have hrel' : ∀ t : Bench K, t.toScene = v → Released w t := by
    rintro t rfl
    refine ⟨Scene.Lasting.trans hrel.lasting hlast, fun r hr hmem => ?_⟩
    have hlt : r < u.springs.size := Nat.lt_of_lt_of_le (hd r hr) hrel.lasting.size_le
    obtain ⟨hmem', -, -, -, hx | hx⟩ := hlast.listed r hmem hlt id
    · exact hx.trans (hrel.expired r hr hmem')
    · exact hx.2
  cases o with
  | error e => exact ⟨hrel' _ rfl, hdu⟩
  | ok r => exact ⟨hrel' _ rfl, rfl, hv⟩

namespace Op

/-- All that an operation can do to the drag in progress: it goes on, or it is over, or it is over
and another one has begun. -/
theorem step_drag (h : w.toSketch.Sound) (hd : ∀ r, w.drag = some r → r < w.springs.size)
    (o : Op K) :
    (o.Steady ∧ o.grabs w = none ∧ (o.step w).drag = w.drag ∧
      Sketch.Lasting (o.Lists w) o.Expires w.toSketch (o.step w).toSketch) ∨
    (¬ o.Steady ∧ o.grabs w = none ∧ (o.step w).drag = none ∧ Released w (o.step w)) ∨
    (¬ o.Steady ∧ ∃ r, o.grabs w = some r ∧ (o.step w).drag = some r ∧ Released w (o.step w) ∧
      r ∈ (o.step w).graph.listed ∧ ((o.step w).spring r).kind = .followPencil ∧
      ((o.step w).spring r).expired = false) := by
  cases o with
  | sketch o => exact .inl ⟨trivial, rfl, rfl, o.step_lasting w.toSketch⟩
  | frame dt => exact .inl ⟨trivial, rfl, rfl, Sketch.refresh_lasting (some dt) w.toSketch⟩
  | pullTo spot =>
    have hdrag : (Bench.pullTo spot).wp (fun _ t => t.drag = w.drag) w := by
      unfold Bench.pullTo
      rw [wp_bind, wp_read, next_ok]
      split <;> exact rfl
    exact .inl ⟨trivial, rfl, hdrag, pullTo_lasting spot w⟩
  | letGo => exact .inr (.inl ⟨id, rfl, (letGo_released h).2⟩)
  | cancel => exact .inr (.inl ⟨id, rfl, (cancel_released h).2⟩)
  | grab k spot =>
    obtain ⟨hrel, hgrab⟩ := grab_spec h hd k spot
    have hgrabs : grabs (.grab k spot) w = (Bench.grab k spot w).outcome.toOption := rfl
    have hstep : step (.grab k spot) w = (Bench.grab k spot w).state := by
      show ((Bench.grab k spot >>= fun _ => pure ()) w).state = _
      rw [bind_apply]
      split <;> rfl
    rw [hgrabs, hstep]
    cases ho : (Bench.grab k spot w).outcome with
    | error e =>
      rw [ho] at hgrab
      exact .inr (.inl ⟨id, rfl, hgrab, hrel⟩)
    | ok r =>
      rw [ho] at hgrab
      exact .inr (.inr ⟨id, r, rfl, hgrab.1, hrel, hgrab.2⟩)

theorem steady_of_strikes {o : Op K} (h : o.Strikes w r) : o.Steady := by
  cases o with
  | sketch o => trivial
  | _ => exact h.elim

theorem step_drags {made : List Ref} (h : w.toSketch.Sound) (hd : w.toScene.Drags made w.drag)
    (o : Op K) (ho : ∀ r ∈ made, ¬ o.Lists w r) :
    (o.step w).toScene.Drags (made ++ (o.grabs w).toList) (o.step w).drag := by
  have hstep : Sketch.Onward w.toSketch (o.step w).toSketch := o.step_onward h
  rcases o.step_drag h fun r hr => hd.lt r (hd.mem r hr) with ⟨-, hg, hdrag, hlast⟩ |
    ⟨-, hg, hdrag, hrel⟩ | ⟨-, r, hg, hdrag, hrel, hr, -⟩
  · rw [hg, hdrag, Option.toList_none, List.append_nil]
    exact hd.lasting hlast hstep.scene ho
  · rw [hg, hdrag, Option.toList_none, List.append_nil]
    exact (hd.lasting hrel.lasting hstep.scene fun _ _ => id).ended hrel.expired
  · rw [hg, hdrag, Option.toList_some]
    exact ((hd.lasting hrel.lasting hstep.scene fun _ _ => id).ended hrel.expired).begun
      hstep.sound.scene hr

/-- While the drag goes on, its spring leaves the list only if it is struck out by hand. -/
theorem mem_listed_step (h : w.toSketch.Sound) (o : Op K) (ho : o.Steady)
    (hr : r ∈ w.graph.listed) (hk : (w.spring r).kind = .followPencil)
    (hx : (w.spring r).expired = false) :
    r ∈ (o.step w).graph.listed ↔ ¬ o.Strikes w r := by
  have hfree : w.Unowned r := h.unowned hr (by rw [hk]; decide) (by rw [hk]; decide)
  cases o with
  | sketch o => exact o.mem_listed_step h hr hfree hx
  | frame dt => exact iff_of_true (Sketch.refresh_mem h hr hfree hx (some dt)) id
  | pullTo spot =>
    have hpull : (Bench.pullTo spot).wp (fun _ t => r ∈ t.graph.listed) w := by
      unfold Bench.pullTo
      rw [wp_bind, wp_read, next_ok]
      split
      · exact hr
      · rw [wp_onBench]
        exact (Scene.movePoint_alike w.toScene _ spot).mono fun _ _ hv => hv.listed ▸ hr
    exact iff_of_true hpull id
  | grab k spot => exact ho.elim
  | letGo => exact ho.elim
  | cancel => exact ho.elim

end Op

/-! ### Whole runs -/

/-- The springs of all drags of a run, in the order that these began. -/
def grabbed : List (Op K) → Bench K → List Ref
  | [], _ => []
  | o :: ops, w => (o.grabs w).toList ++ grabbed ops (o.step w)

theorem grabbed_concat (ops : List (Op K)) (o : Op K) (w : Bench K) :
    grabbed (ops ++ [o]) w = grabbed ops w ++ (o.grabs (after ops w)).toList := by
  induction ops generalizing w with
  | nil => simp [grabbed, after]
  | cons o' ops ih =>
    rw [List.cons_append, grabbed, grabbed, ih, List.append_assoc]
    rfl

/-- No operation of the run does `P` to the spring of a drag that began before. -/
def Abstains (P : Op K → Bench K → Ref → Prop) (ops : List (Op K)) (w : Bench K) : Prop :=
  ∀ pre o post, ops = pre ++ o :: post → ∀ r ∈ grabbed pre w, ¬ P o (after pre w) r

section

variable {P : Op K → Bench K → Ref → Prop} {ops : List (Op K)} {o : Op K}

theorem Abstains.init (h : Abstains P (ops ++ [o]) w) : Abstains P ops w :=
  fun pre o' post e => h pre o' (post ++ [o]) (by simp [e])

theorem Abstains.last (h : Abstains P (ops ++ [o]) w) :
    ∀ r ∈ grabbed ops w, ¬ P o (after ops w) r :=
  h ops o [] rfl

end

theorem abstains_of_forall {P : Op K → Bench K → Ref → Prop} {ops : List (Op K)}
    (h : ∀ o ∈ ops, ∀ w r, ¬ P o w r) : Abstains P ops w :=
  fun pre o post e r _ => h o (by simp [e]) (after pre w) r

theorem after_drags (h : w.toSketch.Sound) (hw : w.drag = none) (ops : List (Op K))
    (hops : Abstains Op.Lists ops w) :
    (after ops w).toScene.Drags (grabbed ops w) (after ops w).drag := by
  induction ops using List.reverseRecOn with
  | nil =>
    show w.toScene.Drags [] w.drag
    rw [hw]
    constructor <;> simp
  | append_singleton ops o ih =>
    rw [after_concat, grabbed_concat]
    exact o.step_drags (after_onward h ops).sound (ih hops.init) hops.last

theorem frame_advance (h : w.toSketch.Sound) (dt : K) :
    ∃ v : Scene K, v.Sound ∧ v.graph.config = w.graph.config ∧ (w.Numeric → v.Numeric) ∧
      (frame dt w).outcome = (Scene.advance dt v).outcome ∧
      (frame dt w).state.toScene = (Scene.advance dt v).state := by
  have ht : Sketch.Onward w.toSketch ((Sketch.refresh none).onSketch w).state.toSketch :=
    (Sketch.refresh_shrunk h none).toOnward
  obtain ⟨hsame, hstate⟩ := frame_refreshed h dt
  exact ⟨_, ht.sound.scene, ht.scene.config, fun hnum => Sketch.refresh_numeric h hnum none, hsame,
    congrArg Sketch.toScene hstate⟩

/-- A frame that does not fail leaves nothing that is expired. -/
theorem frame_swept (h : w.toSketch.Sound) {dt : K} (hdt : ¬ dt ≤ 0.0)
    (hok : (frame dt w).outcome = .ok ()) :
    ∀ r ∈ (frame dt w).state.graph.listed, ((frame dt w).state.spring r).expired = false := by
  obtain ⟨v, hv, -, -, ho, ht⟩ := frame_advance h dt
  obtain ⟨-, hspring⟩ := Scene.advance_graph hv dt
  have hlisted := Scene.advance_listed hv hdt (ho.symm.trans hok)
  rw [ht]
  intro r hr
  rw [hlisted, List.mem_filter, Bool.not_eq_true'] at hr
  rw [hspring r]
  exact hr.2

theorem frame_ok (h : w.toSketch.Sound) (hnum : w.Numeric) {dt dh : K} {steps : Number K} {n : Nat}
    (hs : w.graph.config.stepping.Splits dt steps n dh) : (frame dt w).outcome = .ok () := by
  obtain ⟨v, hv, hconfig, hnumeric, ho, -⟩ := frame_advance h dt
  exact ho.trans (Scene.advance_ok hv (hnumeric hnum) (hconfig ▸ hs))

/-- After every run in which no spring of a drag is listed by hand, the springs of drags that are
over are expired or gone, so that at most one is left that is not. A frame of positive length that
does not fail leaves no trace of them, neither in the list nor at a node. -/
theorem dropped_after_run (c : Config K) (springs : Arena (Spring K))
    (quantities : Arena (Quantity K)) (ops : List (Op K))
    (hops : Abstains Op.Lists ops (empty c springs quantities)) :
    let w := after ops (empty c springs quantities)
    let made := grabbed ops (empty c springs quantities)
    (∀ r ∈ made, r ∈ w.graph.listed → w.drag ≠ some r → (w.spring r).expired = true) ∧
      (∀ r ∈ made, ∀ s ∈ made, r ∈ w.graph.listed → s ∈ w.graph.listed →
        (w.spring r).expired = false → (w.spring s).expired = false → r = s) ∧
      ∀ dt, ¬ dt ≤ 0.0 → (frame dt w).outcome = .ok () →
        let t := (frame dt w).state
        ∀ r ∈ made, t.drag ≠ some r → r ∉ t.graph.listed ∧
          ∀ n ∈ t.graph.nodes, ∀ i, (t.spring r).id = some i → i ∉ n.springIds := by
  intro w made
  have h : w.toSketch.Sound := sound_after c springs quantities ops
  have hd : w.toScene.Drags made w.drag :=
    after_drags (Sketch.sound_empty c springs quantities) rfl ops hops
  refine ⟨hd.rest, fun r hr s hs hrw hsw hrx hsx => ?_, ?_⟩
  · have current : ∀ r ∈ made, r ∈ w.graph.listed → (w.spring r).expired = false →
        w.drag = some r := by
      intro r hr hrw hx
      by_contra hne
      exact Bool.noConfusion (hx.symm.trans (hd.rest r hr hrw hne))
    exact Option.some.inj ((current r hr hrw hrx).symm.trans (current s hs hsw hsx))
  · intro dt hdt hok t r hr hne
    have ht : t.toScene.Drags made t.drag := by
      have hstep := Op.step_drags h hd (.frame dt) fun _ _ => id
      rwa [show Op.grabs (.frame dt) w = none from rfl, Option.toList_none,
        List.append_nil] at hstep
    have hsound : t.toSketch.Sound := (Op.step_onward h (.frame dt)).sound
    have hgone : r ∉ t.graph.listed := fun hrt =>
      Bool.noConfusion ((frame_swept h hdt hok r hrt).symm.trans (ht.rest r hr hrt hne))
    exact ⟨hgone, fun n hn i hi => ht.not_attached hsound.scene hr hgone hn hi⟩

/-- A node is dragged to `(1, 0)`. -/
noncomputable def dragRun : List (Op ℝ) :=
  [.sketch (.scene (.addNode (.ofPoint ⟨0, 0⟩))), .grab (some 0) (some (.ofPoint ⟨1, 0⟩))]

/-- It is let go. -/
noncomputable def letGoRun : List (Op ℝ) := dragRun ++ [.letGo]

theorem dropped_letGo :
    let start : Bench ℝ := empty default {} {}
    let w := after letGoRun start
    Abstains Op.Lists letGoRun start ∧ 0 ∈ grabbed letGoRun start ∧ 0 ∈ w.graph.listed ∧
      (w.spring 0).expired = true ∧ (frame 1 w).outcome = .ok () ∧
        0 ∉ (frame 1 w).state.graph.listed := by
  intro start w
  have habstains : Abstains Op.Lists letGoRun start := by
    refine abstains_of_forall fun o ho w r => ?_
    simp only [letGoRun, dragRun, List.cons_append, List.nil_append, List.mem_cons,
      List.not_mem_nil, or_false] at ho
    rcases ho with rfl | rfl | rfl <;> exact id
  have hgrabbed : grabbed letGoRun start = [0] := rfl
  have hlisted : w.graph.listed = [0] := rfl
  have hdrag : w.drag = none := rfl
  have hidle : ∀ r, w.drag ≠ some r := fun r e => by cases hdrag.symm.trans e
  have hmade : 0 ∈ grabbed letGoRun start := by simp [hgrabbed]
  have hmem : 0 ∈ w.graph.listed := by simp [hlisted]
  have hw : w.toSketch.Sound := sound_after default {} {} letGoRun
  have hconfig : w.graph.config.stepping = Stepping.standard := rfl
  have hown : ∀ r, Op.sketch (.scene (.enterSpring r)) ∉ letGoRun := by simp [letGoRun, dragRun]
  have hnum : w.Numeric :=
    numeric_after default {} {} letGoRun (fun _ => rfl) fun r _ hr => absurd hr (hown r)
  have hframe : (frame 1 w).outcome = .ok () :=
    frame_ok hw hnum (hconfig ▸ Stepping.splits_standard)
  have hlate : ¬ (1 : ℝ) ≤ 0.0 := by norm_num
  obtain ⟨hrest, -, hswept⟩ := dropped_after_run default {} {} letGoRun habstains
  have hgone := hswept 1 hlate hframe 0 hmade (hidle 0)
  exact ⟨habstains, hmade, hmem, hrest 0 hmade hmem (hidle 0), hframe, hgone.1⟩

/-! ### What the bench knows of its drag -/

/-- The spring that the bench takes for that of the drag in progress is the last one made, and it is
as it was made if it is listed. -/
def Holds (made : List Ref) (w : Bench K) : Prop := ∀ r, w.drag = some r →
  made.getLast? = some r ∧
    (r ∈ w.graph.listed → (w.spring r).kind = .followPencil ∧ (w.spring r).expired = false)

theorem Op.step_holds {made : List Ref} (h : w.toSketch.Sound)
    (hd : w.toScene.Drags made w.drag) (hw : Holds made w) (o : Op K)
    (ho : ∀ r ∈ made, ¬ o.Handles w r) : Holds (made ++ (o.grabs w).toList) (o.step w) := by
  have hlt : ∀ r, w.drag = some r → r < w.springs.size := fun r hr => hd.lt r (hd.mem r hr)
  rcases o.step_drag h hlt with ⟨-, hg, hdrag, hlast⟩ | ⟨-, hg, hdrag, -⟩ |
    ⟨-, r, hg, hdrag, -, -, hk, hx⟩
  · intro r hr
    rw [hdrag] at hr
    obtain ⟨hlastr, hr'⟩ := hw r hr
    rw [hg, Option.toList_none, List.append_nil]
    refine ⟨hlastr, fun hrt => ?_⟩
    have hfree : ¬ o.Handles w r := ho r (hd.mem r hr)
    obtain ⟨hrw, hk, -, -, hx⟩ := hlast.listed r hrt (hlt r hr) fun hl => hfree (.inl hl)
    obtain ⟨hk', hx'⟩ := hr' hrw
    refine ⟨hk.trans hk', ?_⟩
    rcases hx with hx | ⟨hx, -⟩
    · exact hx.trans hx'
    · exact absurd (.inr hx) hfree
  · intro r hr
    cases hdrag.symm.trans hr
  · intro r' hr'
    cases hdrag.symm.trans hr'
    rw [hg, Option.toList_some]
    exact ⟨List.getLast?_concat, fun _ => ⟨hk, hx⟩⟩

theorem Abstains.lists {ops : List (Op K)} (h : Abstains Op.Handles ops w) :
    Abstains Op.Lists ops w :=
  fun pre o post e r hr hl => h pre o post e r hr (.inl hl)

theorem after_holds (h : w.toSketch.Sound) (hw : w.drag = none) (ops : List (Op K))
    (hops : Abstains Op.Handles ops w) : Holds (grabbed ops w) (after ops w) := by
  induction ops using List.reverseRecOn with
  | nil =>
    intro r hr
    cases hw.symm.trans hr
  | append_singleton ops o ih =>
    rw [after_concat, grabbed_concat]
    exact o.step_holds (after_onward h ops).sound (after_drags h hw ops hops.init.lists)
      (ih hops.init) hops.last

/-- The spring of the last drag is listed and not expired. -/
def Held (ops : List (Op K)) (w : Bench K) (r : Ref) : Prop :=
  (grabbed ops w).getLast? = some r ∧ r ∈ (after ops w).graph.listed ∧
    ((after ops w).spring r).expired = false

/-- The spring of a drag in progress was struck out by hand, and the drag has gone on since. -/
def Lost (ops : List (Op K)) (w : Bench K) (r : Ref) : Prop :=
  ∃ pre o post, ops = pre ++ o :: post ∧ (after pre w).drag = some r ∧
    r ∈ (after pre w).graph.listed ∧ o.Strikes (after pre w) r ∧ ∀ o' ∈ post, o'.Steady

theorem lost_concat (ops : List (Op K)) (o : Op K) :
    Lost (ops ++ [o]) w r ↔ ((after ops w).drag = some r ∧ r ∈ (after ops w).graph.listed ∧
      o.Strikes (after ops w) r) ∨ Lost ops w r ∧ o.Steady := by
  constructor
  · rintro ⟨pre, o', post, e, hr, hmem, hstrikes, hpost⟩
    rcases List.eq_nil_or_concat post with rfl | ⟨post, o'', rfl⟩
    · obtain ⟨rfl, ho⟩ := List.append_inj' e rfl
      cases ho
      exact .inl ⟨hr, hmem, hstrikes⟩
    · rw [List.concat_eq_append] at e hpost
      rw [← List.cons_append, ← List.append_assoc] at e
      obtain ⟨rfl, ho⟩ := List.append_inj' e rfl
      cases ho
      exact .inr ⟨⟨pre, o', post, rfl, hr, hmem, hstrikes, fun o' ho' => hpost o' (by simp [ho'])⟩,
        hpost o (by simp)⟩
  · rintro (⟨hr, hmem, hstrikes⟩ | ⟨⟨pre, o', post, rfl, hr, hmem, hstrikes, hpost⟩, ho⟩)
    · exact ⟨ops, o, [], rfl, hr, hmem, hstrikes, by simp⟩
    · refine ⟨pre, o', post ++ [o], by simp, hr, hmem, hstrikes, fun o'' ho'' => ?_⟩
      rcases List.mem_append.1 ho'' with ho'' | ho''
      · exact hpost o'' ho''
      · exact List.mem_singleton.1 ho'' ▸ ho

/-- The bench holds on to a spring that is not listed exactly if the spring was lost. -/
theorem lost_iff (h : w.toSketch.Sound) (hw : w.drag = none) (ops : List (Op K))
    (hops : Abstains Op.Handles ops w) :
    Lost ops w r ↔ (after ops w).drag = some r ∧ r ∉ (after ops w).graph.listed := by
  induction ops using List.reverseRecOn with
  | nil =>
    constructor
    · rintro ⟨pre, o, post, e, -⟩
      simp at e
    · rintro ⟨hr, -⟩
      cases hw.symm.trans hr
  | append_singleton ops o ih =>
    have hops' := hops.init
    have hsound : (after ops w).toSketch.Sound := (after_onward h ops).sound
    have hd := after_drags h hw ops hops'.lists
    have hholds := after_holds h hw ops hops'
    rw [lost_concat, ih hops', after_concat]
    rcases o.step_drag hsound fun r hr => hd.lt r (hd.mem r hr) with ⟨ho, -, hdrag, hlast⟩ |
      ⟨ho, -, hdrag, -⟩ | ⟨ho, r', -, hdrag, -, hr', -⟩
    · rw [hdrag, and_iff_left ho]
      by_cases hr : (after ops w).drag = some r
      · by_cases hmem : r ∈ (after ops w).graph.listed
        · obtain ⟨hk, hx⟩ := (hholds r hr).2 hmem
          simp [hr, hmem, o.mem_listed_step hsound ho hmem hk hx]
        · -- what is not listed is not listed by any operation but by hand
          have hgone : r ∉ (o.step (after ops w)).graph.listed := fun hrt =>
            have hrl := hd.mem r hr
            hmem (hlast.listed r hrt (hd.lt r hrl) fun hl => hops.last r hrl (.inl hl)).1
          simp [hr, hmem, hgone]
      · simp [hr]
    · have hstrikes : ¬ o.Strikes (after ops w) r := fun hs => ho (Op.steady_of_strikes hs)
      simp [hdrag, ho, hstrikes]
    · have hstrikes : ¬ o.Strikes (after ops w) r := fun hs => ho (Op.steady_of_strikes hs)
      simp only [hdrag, ho, hstrikes, and_false, or_self, false_iff]
      rintro ⟨hr, hmem⟩
      cases hr
      exact hmem hr'

/-- After every run in which no spring of a drag is listed or expired by hand, the bench is dragging
a node exactly if the spring of the last drag is listed and not expired, or was lost. In the first
case it is a spring after the pencil, and the node that it draws is there; in the other case there
is no spring. -/
theorem drag_after_run (c : Config K) (springs : Arena (Spring K))
    (quantities : Arena (Quantity K)) (ops : List (Op K))
    (hops : Abstains Op.Handles ops (empty c springs quantities)) :
    let start := empty c springs quantities
    let w := after ops start
    (w.dragging = true ↔ ∃ r, Held ops start r ∨ Lost ops start r) ∧
      (∀ r, Held ops start r → w.drag = some r ∧ (w.spring r).kind = .followPencil ∧
        w.isNode (w.spring r).b = true) ∧
      ∀ r, Lost ops start r → w.drag = some r ∧ r ∉ w.graph.listed := by
  intro start w
  have hs : start.toSketch.Sound := Sketch.sound_empty c springs quantities
  have h : w.toSketch.Sound := sound_after c springs quantities ops
  have hd : w.toScene.Drags (grabbed ops start) w.drag := after_drags hs rfl ops hops.lists
  have hheld : ∀ r, Held ops start r → w.drag = some r := by
    rintro r ⟨hlast, hr, hx⟩
    by_contra hne
    have hmem : r ∈ grabbed ops start := List.mem_of_getLast? hlast
    exact Bool.noConfusion (hx.symm.trans (hd.rest r hmem hr hne))
  have hholds : Holds (grabbed ops start) w := after_holds hs rfl ops hops
  refine ⟨⟨fun hdrag => ?_, ?_⟩, fun r hr => ?_, fun r => (lost_iff hs rfl ops hops).1⟩
  · obtain ⟨r, hr⟩ := Option.isSome_iff_exists.1 hdrag
    refine ⟨r, ?_⟩
    by_cases hmem : r ∈ w.graph.listed
    · exact .inl ⟨(hholds r hr).1, hmem, ((hholds r hr).2 hmem).2⟩
    · exact .inr ((lost_iff hs rfl ops hops).2 ⟨hr, hmem⟩)
  · rintro ⟨r, hr | hr⟩
    · exact Option.isSome_iff_exists.2 ⟨r, hheld r hr⟩
    · exact Option.isSome_iff_exists.2 ⟨r, ((lost_iff hs rfl ops hops).1 hr).1⟩
  · exact ⟨hheld r hr, ((hholds r (hheld r hr)).2 hr.2.1).1,
      h.scene.endpoints r hr.2.1 _ (Spring.b_mem_endpoints _)⟩

theorem drag_held :
    let start : Bench ℝ := empty default {} {}
    Abstains Op.Handles dragRun start ∧ Held dragRun start 0 ∧
      (after dragRun start).dragging = true := by
  intro start
  have habstains : Abstains Op.Handles dragRun start := by
    refine abstains_of_forall fun o ho w r => ?_
    simp only [dragRun, List.mem_cons, List.not_mem_nil, or_false] at ho
    rcases ho with rfl | rfl <;> exact fun h => h.elim id id
  have hgrabbed : grabbed dragRun start = [0] := rfl
  have hlisted : (after dragRun start).graph.listed = [0] := rfl
  have hexpired : ((after dragRun start).spring 0).expired = false := rfl
  have hheld : Held dragRun start 0 := ⟨by rw [hgrabbed]; rfl, by simp [hlisted], hexpired⟩
  exact ⟨habstains, hheld,
    (drag_after_run default {} {} dragRun habstains).1.2 ⟨0, .inl hheld⟩⟩

/-- The dragged node is deleted. -/
noncomputable def deletedRun : List (Op ℝ) := dragRun ++ [.sketch (.scene (.deleteNode (some 0)))]

/-- The bench is dragging a node, and the spring of the last drag is not there. -/
theorem dragging_deleted :
    let start : Bench ℝ := empty default {} {}
    Abstains Op.Handles deletedRun start ∧ (after deletedRun start).dragging = true ∧
      ∀ r, ¬ Held deletedRun start r := by
  intro start
  have habstains : Abstains Op.Handles deletedRun start := by
    refine abstains_of_forall fun o ho w r => ?_
    simp only [deletedRun, dragRun, List.cons_append, List.nil_append, List.mem_cons,
      List.not_mem_nil, or_false] at ho
    rcases ho with rfl | rfl | rfl <;> exact fun h => h.elim id id
  have hdrag : (after dragRun start).drag = some 0 := rfl
  have hlisted : (after dragRun start).graph.listed = [0] := rfl
  have hb : ((after dragRun start).spring 0).b = some 0 := rfl
  have hcontains : ((after dragRun start).spring 0).contains (some 0) = true := by
    rw [← hb]
    exact List.contains_iff_mem.2 (Spring.b_mem_endpoints _)
  have hlost : Lost deletedRun start 0 :=
    (lost_concat ..).2 (.inl ⟨hdrag, by simp [hlisted], hcontains⟩)
  have hstart : start.toSketch.Sound := Sketch.sound_empty _ _ _
  obtain ⟨hdrag', hgone⟩ := (lost_iff hstart rfl _ habstains).1 hlost
  have hdragging : (after deletedRun start).dragging = true := by
    rw [dragging, hdrag']
    rfl
  refine ⟨habstains, hdragging, ?_⟩
  rintro r ⟨hlast, hmem, -⟩
  have hgrabbed : grabbed dragRun start = [0] := rfl
  rw [deletedRun, grabbed_concat, hgrabbed] at hlast
  cases hlast
  exact hgone hmem

end Bench

end Linkage
