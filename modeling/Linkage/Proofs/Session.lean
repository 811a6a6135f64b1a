import Linkage.Proofs.Real
import Linkage.Proofs.Scene.Footprint
import Linkage.Session.Step

/-!
# Scenes side by side

The scenes of a session share their springs. An operation on one of them does not touch the lists of
the others, and it does not change what they find under an id unless it lists a spring that is
theirs (`step_apart`). As long as no operation of a run does that, every scene stays sound
(`after_sound`), so that it finds what its nodes keep the ids of (`Scene.Traceable`).
-/

namespace Linkage

variable {K : Type} [Scalar K]

/-! ### What is found -/

/-- Every spring of the list is found under the id that its nodes keep, and is removed by it. -/
structure Scene.Traceable (w : Scene K) : Prop where
  found : ∀ r ∈ w.graph.listed, ∃ i, w.springRef? (some i) = some r
  kept : ∀ n ∈ w.graph.nodes, ∀ i, i ∈ n.springIds ↔
    ∃ r, w.springRef? (some i) = some r ∧ (w.spring r).contains (some n.id)
  removed : ∀ i r, w.springRef? (some i) = some r → (deleteSpring (some i)).wp (fun o t =>
    o = .ok () ∧ t.graph.listed = w.graph.listed.filter (· != r) ∧
      t.graph.nodes = w.graph.nodes.map (·.detach i)) w

theorem Scene.Sound.traceable {w : Scene K} (h : w.Sound) : w.Traceable where
  found r hr := by
    obtain ⟨i, hi, -⟩ := h.spring_lt r hr
    exact ⟨i, h.springRef?_iff.2 ⟨hr, hi⟩⟩
  kept n hn i := by
    rw [h.mem_springIds hn]
    simp only [h.springRef?_iff, touching, List.mem_filter]
    constructor
    · rintro ⟨r, ⟨hr, hk⟩, hid⟩
      exact ⟨r, ⟨hr, hid⟩, hk⟩
    · rintro ⟨r, ⟨hr, hid⟩, hk⟩
      exact ⟨r, ⟨hr, hk⟩, hid⟩
  removed i r hi := by
    obtain ⟨hr, hid⟩ := of_springRef?_eq_some hi
    refine (deleteSpring_spec h (some i)).mono fun o t => ?_
    rintro ⟨rfl, ⟨hnone, -⟩ | ⟨j, r', hj, -, rfl⟩⟩
    · cases hnone.symm.trans hi
    · cases hj
      exact ⟨rfl, listed_delist h hr hid, rfl⟩

namespace Session

open Act

variable {s t : Session K} {w : Scene K} {i j : Nat}

/-- One of the scenes, with the springs that all of them share. -/
def scene? (s : Session K) (i : Nat) : Option (Scene K) :=
  s.worlds[i]?.map fun v => { springs := s.springs, graph := v.graph }

/-! ### Runs -/

inductive Op (K : Type) where
  | openScene (c : Settings K)
  | scene (i : Nat) (o : Scene.Op K) (ho : o.Here)

namespace Op

def act : Op K → Act K (Session K) Unit
  | openScene c => do let _ ← newWorld false (Bench.openScene c)
  | scene i o _ => onScene i o.act

/-- The session that is left when the operation has ended, be it by a failure. -/
def step (o : Op K) (s : Session K) : Session K := (o.act s).state

/-- The scene that it is done to. -/
def at? : Op K → Option Nat
  | openScene _ => none
  | scene i _ _ => some i

/-- The spring that it lists. -/
def Enters : Op K → Ref → Prop
  | openScene _, _ => False
  | scene _ o _, r => o.Enters r

/-- It lists no spring of another scene. -/
def Fair (o : Op K) (s : Session K) : Prop :=
  ∀ j w, o.at? ≠ some j → s.scene? j = some w → ∀ r ∈ w.graph.listed, ¬ o.Enters r

end Op

def after (ops : List (Op K)) (s : Session K) : Session K := ops.foldl (fun s o => o.step s) s

/-- No operation of the run lists a spring of another scene. -/
def Fair : List (Op K) → Session K → Prop
  | [], _ => True
  | o :: ops, s => o.Fair s ∧ Fair ops (o.step s)

/-! ### One step -/

theorem step_openScene (c : Settings K) (s : Session K) (j : Nat) :
    ((Op.openScene c).step s).scene? j = if j = s.worlds.length
      then some { springs := s.springs, graph := { config := c.toConfig } } else s.scene? j := by
  show ((s.worlds ++ [_])[j]?).map _ = _
  split
  · next hj =>
    rw [hj, List.getElem?_concat_length]
    rfl
  · next hj =>
    rcases Nat.lt_or_gt_of_ne hj with hj | hj
    · rw [List.getElem?_append_left hj]
      rfl
    · rw [List.getElem?_eq_none (by simp; omega), scene?,
        List.getElem?_eq_none (Nat.le_of_lt hj)]
      rfl

/-- The scene takes the step, and the others see its springs. -/
theorem step_scene (o : Scene.Op K) (ho : o.Here) (hw : s.scene? i = some w) (j : Nat) :
    ((Op.scene i o ho).step s).scene? j = if j = i then some (o.step w)
      else (s.scene? j).map fun v => { v with springs := (o.step w).springs } := by
  obtain ⟨v, hv, rfl⟩ := Option.map_eq_some_iff.1 hw
  have hlt : i < s.worlds.length := (List.getElem?_eq_some_iff.1 hv).1
  have hstep : (Op.scene i o ho).step s =
      { s.share ((o.act.onScene.onSketch) (s.bench v)).state with
        worlds := s.worlds.set i
          (worldOf ((o.act.onScene.onSketch) (s.bench v)).state v.benched) } := by
    show ((onWorld i (o.act.onScene.onSketch)) s).state = _
    simp only [onWorld, hv]
  rw [hstep]
  show ((s.worlds.set i _)[j]?).map _ = _
  split
  · next hj =>
    rw [hj, List.getElem?_set_self hlt]
    rfl
  · next hj =>
    rw [List.getElem?_set_ne (Ne.symm hj), scene?, Option.map_map]
    rfl

/-- There is no such scene. -/
theorem step_absent (o : Scene.Op K) (ho : o.Here) (hw : s.scene? i = none) :
    (Op.scene i o ho).step s = s := by
  show ((onWorld i (o.act.onScene.onSketch)) s).state = s
  rw [scene?, Option.map_eq_none_iff] at hw
  simp only [onWorld, hw]

omit [Scalar K] in
theorem springs_eq {v : Scene K} (hv : s.scene? i = some v) (hw : s.scene? j = some w) :
    w.springs = v.springs := by
  obtain ⟨_, -, rfl⟩ := Option.map_eq_some_iff.1 hv
  obtain ⟨_, -, rfl⟩ := Option.map_eq_some_iff.1 hw
  rfl

/-- The other scenes keep their lists. -/
theorem step_beside (o : Op K) (hj : o.at? ≠ some j) (hw : s.scene? j = some w) :
    ∃ t, (o.step s).scene? j = some t ∧ t.graph = w.graph ∧ Scene.Footprint o.Enters w t := by
  cases o with
  | openScene c =>
    obtain ⟨v, hv, -⟩ := Option.map_eq_some_iff.1 hw
    have hlt : j < s.worlds.length := (List.getElem?_eq_some_iff.1 hv).1
    exact ⟨w, by rw [step_openScene, if_neg (Nat.ne_of_lt hlt), hw], rfl, .refl w⟩
  | scene i o ho =>
    have hji : j ≠ i := fun e => hj (by rw [e]; rfl)
    cases hi : s.scene? i with
    | none => exact ⟨w, by rw [step_absent o ho hi, hw], rfl, .refl w⟩
    | some v =>
      refine ⟨{ w with springs := (o.step v).springs }, ?_, rfl,
        (o.step_footprint ho v).beside (springs_eq hi hw)⟩
      rw [step_scene o ho hi, if_neg hji, hw]
      rfl

/-- A scene is new and empty, or it has taken the step, or it lies beside. -/
theorem step_cases (o : Op K) {t : Scene K} (ht : (o.step s).scene? j = some t) :
    (∃ a c, t = { springs := a, graph := { config := c } }) ∨
      (∃ o' ho w, o = .scene j o' ho ∧ s.scene? j = some w ∧ t = o'.step w) ∨
      ∃ w, o.at? ≠ some j ∧ s.scene? j = some w ∧ t.graph = w.graph ∧
        Scene.Footprint o.Enters w t := by
  by_cases hj : o.at? = some j
  · cases o with
    | openScene c => cases hj
    | scene i o ho =>
      cases hj
      cases hw : s.scene? j with
      | none =>
        rw [step_absent o ho hw, hw] at ht
        cases ht
      | some w =>
        rw [step_scene o ho hw, if_pos rfl] at ht
        exact .inr (.inl ⟨o, ho, w, rfl, rfl, (Option.some.inj ht).symm⟩)
  · cases hw : s.scene? j with
    | some w =>
      obtain ⟨t', ht', hgraph, hfoot⟩ := step_beside o hj hw
      cases ht.symm.trans ht'
      exact .inr (.inr ⟨w, hj, rfl, hgraph, hfoot⟩)
    | none =>
      cases o with
      | openScene c =>
        rw [step_openScene, hw] at ht
        split at ht
        · exact .inl ⟨_, _, (Option.some.inj ht).symm⟩
        · cases ht
      | scene i o ho =>
        have hji : j ≠ i := fun e => hj (by rw [e]; rfl)
        cases hi : s.scene? i with
        | none =>
          rw [step_absent o ho hi, hw] at ht
          cases ht
        | some v =>
          rw [step_scene o ho hi, if_neg hji, hw] at ht
          cases ht

/-- What is listed is an object, whichever scene it belongs to. -/
def InArena (s : Session K) : Prop :=
  ∀ j w, s.scene? j = some w → ∀ r ∈ w.graph.listed, r < w.springs.size

theorem step_inArena (h : s.InArena) (o : Op K) : (o.step s).InArena := by
  intro j t ht
  rcases step_cases o ht with ⟨a, c, rfl⟩ | ⟨o, ho, w, rfl, hw, rfl⟩ | ⟨w, -, hw, -, hfoot⟩
  · simp
  · exact (o.step_footprint ho w).inArena (h j w hw)
  · exact hfoot.inArena (h j w hw)

/-- All scenes are sound. -/
def Sound (s : Session K) : Prop := ∀ j w, s.scene? j = some w → w.Sound

/-- They stay so when none lists a spring of another one. -/
theorem step_sound (h : s.Sound) (o : Op K) (ho : o.Fair s) : (o.step s).Sound := by
  intro j t ht
  rcases step_cases o ht with ⟨a, c, rfl⟩ | ⟨o, -, w, rfl, hw, rfl⟩ | ⟨w, hj, hw, hgraph, hfoot⟩
  · exact Scene.sound_empty c a
  · exact (o.step_onward (h j w hw)).sound
  · exact (h j w hw).alike (hfoot.alike hgraph (h j w hw).listed_lt (ho j w hj hw))

/-! ### Whole runs -/

theorem after_inArena (h : s.InArena) (ops : List (Op K)) : (after ops s).InArena := by
  induction ops generalizing s with
  | nil => exact h
  | cons o ops ih => exact ih (step_inArena h o)

theorem after_sound (h : s.Sound) (ops : List (Op K)) (hops : Fair ops s) :
    (after ops s).Sound := by
  induction ops generalizing s with
  | nil => exact h
  | cons o ops ih => exact ih (step_sound h o hops.1) hops.2

/-- After every run on several scenes, an operation on one of them leaves the lists of the others as
they are, and what they find under every id unless it lists a spring that is theirs. After a run in
which no operation did that, every scene finds and removes each of its springs under the id that its
nodes keep. -/
theorem apart_after_run (springs : Arena (Spring K)) (quantities : Arena (Quantity K))
    (ops : List (Op K)) :
    let fresh : Session K := { springs := springs, quantities := quantities }
    let s := after ops fresh
    (∀ (o : Op K) j w, o.at? ≠ some j → s.scene? j = some w →
      ∃ t, (o.step s).scene? j = some t ∧ t.graph = w.graph ∧
        ((∀ r ∈ w.graph.listed, ¬ o.Enters r) → ∀ k, t.springRef? k = w.springRef? k)) ∧
    (Fair ops fresh → ∀ j w, s.scene? j = some w → w.Traceable) := by
  intro fresh s
  have hnone : ∀ j, fresh.scene? j = none := fun j => rfl
  have harena : s.InArena := after_inArena (fun j w hw => by cases (hnone j).symm.trans hw) ops
  constructor
  · intro o j w hj hw
    obtain ⟨t, ht, hgraph, hfoot⟩ := step_beside o hj hw
    exact ⟨t, ht, hgraph, fun hout k => (hfoot.alike hgraph (harena j w hw) hout).springRef?⟩
  · intro hops j w hw
    have hsound : fresh.Sound := fun j w hw => by cases (hnone j).symm.trans hw
    exact (after_sound hsound ops hops j w hw).traceable

/-- Two scenes with a node each, and two spring objects that are listed nowhere yet. -/
noncomputable def pairRun : List (Op ℝ) :=
  let spring : SpringSpec ℝ :=
    .affix (some (Constants.standard .affix)) (some 0) (some (.ofPoint ⟨0, 0⟩))
  [.openScene .standard, .openScene .standard,
    .scene 0 (.addNode (.ofPoint ⟨0, 0⟩)) trivial, .scene 1 (.addNode (.ofPoint ⟨0, 0⟩)) trivial,
    .scene 0 (.makeSpring spring) trivial, .scene 1 (.makeSpring spring) trivial]

/-- One scene lists a spring that the other one has struck out. -/
noncomputable def movedRun : List (Op ℝ) :=
  pairRun ++ [.scene 0 (.enterSpring 0) trivial, .scene 0 (.deleteSpring (some 0)) trivial,
    .scene 1 (.enterSpring 0) trivial]

/-- A spring may move from one scene to another. -/
theorem apart_moved : Fair movedRun {} ∧
    ((after movedRun {}).scene? 1).map (·.graph.listed) = some [0] ∧
    ∀ w, (after movedRun {}).scene? 1 = some w → w.Traceable := by
  have hfair : Fair movedRun {} := by
    refine ⟨?_, ?_, ?_, ?_, ?_, ?_, ?lists, ?_, ?listsAgain, trivial⟩
    case lists =>
      intro j w hj hw r hr
      match j with
      | 0 => exact absurd rfl hj
      | 1 =>
        cases hw
        cases hr
      | j + 2 => cases hw
    case listsAgain =>
      intro j w hj hw r hr
      match j with
      | 0 =>
        cases hw
        cases hr
      | 1 => exact absurd rfl hj
      | j + 2 => cases hw
    all_goals exact fun _ _ _ _ _ _ => id
  exact ⟨hfair, rfl, fun w => (apart_after_run {} {} movedRun).2 hfair 1 w⟩

/-- The first scene lists one spring and the second scene the other one; then the second one lists
the spring of the first one too. -/
noncomputable def takenRun : List (Op ℝ) :=
  pairRun ++ [.scene 0 (.enterSpring 0) trivial, .scene 1 (.enterSpring 1) trivial]

/-- The first scene loses sight of its spring, and cannot remove it under the id that its node has
kept. -/
theorem not_apart_taken :
    let s := after takenRun {}
    let t := (Op.scene 1 (.enterSpring 0) trivial).step s
    let u := (Op.scene 0 (.deleteSpring (some 0)) trivial).step t
    (s.scene? 0).map (·.springRef? (some 0)) = some (some 0) ∧
      (t.scene? 0).map (·.springRef? (some 0)) = some none ∧
      (t.scene? 0).map (·.graph.nodes.map Node.springIds) = some [[0]] ∧
      (u.scene? 0).map (·.graph.listed) = some [0] :=
  ⟨rfl, rfl, rfl, rfl⟩

end Session

end Linkage
