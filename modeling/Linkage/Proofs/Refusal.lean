import Linkage.Proofs.Bench
import Linkage.Proofs.Motion
import Linkage.Proofs.Scene.Lines

/-!
# Refused calls

A call that builds on a scene succeeds or is refused, and one that is refused has changed nothing,
even where the first endpoint was found and the second was not (`Act.RefusedIff`). It is refused for
points that cannot be read, for endpoints that are not there or are the same, and for springs that
are listed already (`Bench.refused_after_run`).

That endpoints are the same is found out where a spring is made (`SpringSpec.Proper`): there is no
spring to be listed then.
-/

namespace Linkage

namespace Act

variable {K σ α β : Type} {s : σ} {P Q : Prop} {x : Act K σ α} {f : α → Act K σ β}

/-- The action fails exactly where `P` holds, and then it has changed nothing. -/
structure RefusedIff (x : Act K σ α) (P : Prop) (s : σ) : Prop where
  error : ∀ e, (x s).outcome = .error e → P ∧ (x s).state = s
  ok : ∀ a, (x s).outcome = .ok a → ¬ P

namespace RefusedIff

theorem of_wp (h : x.wp (fun o t => match o with
    | .error _ => P ∧ t = s
    | .ok _ => ¬ P) s) : x.RefusedIff P s := by
  unfold wp at h
  constructor
  · intro e he
    rwa [he] at h
  · intro a ha
    rwa [ha] at h

theorem congr (h : x.RefusedIff P s) (e : P ↔ Q) : x.RefusedIff Q s := propext e ▸ h

theorem pure (a : α) : (Pure.pure a : Act K σ α).RefusedIff False s := of_wp not_false

theorem fail (e : Failure K) : (Act.fail e : Act K σ α).RefusedIff True s := of_wp ⟨trivial, rfl⟩

theorem ofExcept (r : Except (Failure K) α) :
    (Act.ofExcept r : Act K σ α).RefusedIff (¬ ∃ a, r = .ok a) s := by
  refine of_wp ?_
  rw [wp_ofExcept]
  cases r with
  | error e => exact ⟨by simp, rfl⟩
  | ok a => exact not_not.2 ⟨a, rfl⟩

/-- Something is looked at first. -/
theorem read {f : σ → Act K σ β} (h : (f s).RefusedIff P s) : (Act.read >>= f).RefusedIff P s :=
  ⟨h.error, h.ok⟩

theorem report {e : Event K} {f : Unit → Act K σ β} (h : (f ()).RefusedIff P s) :
    (Act.report e >>= f).RefusedIff P s :=
  ⟨h.error, h.ok⟩

/-- A check, then what has reasons of its own to be refused. -/
theorem bind (hx : x.RefusedIff P s) (hs : x.wp (fun _ t => t = s) s)
    (hf : ∀ a, (x s).outcome = .ok a → (f a).RefusedIff Q s) :
    (x >>= f).RefusedIff (P ∨ Q) s := by
  have hs : (x s).state = s := hs
  refine of_wp ?_
  unfold wp
  cases ho : (x s).outcome with
  | error e =>
    rw [bind_apply_error ho]
    exact ⟨.inl (hx.error e ho).1, hs⟩
  | ok a =>
    rw [bind_apply_ok ho, hs]
    dsimp only
    cases hfo : (f a s).outcome with
    | error e =>
      obtain ⟨hQ, hfs⟩ := (hf a ho).error e hfo
      exact ⟨.inr hQ, hfs⟩
    | ok b => exact not_or.2 ⟨hx.ok a ho, (hf a ho).ok b hfo⟩

/-- What follows cannot fail. -/
theorem andThen (hx : x.RefusedIff P s) (hf : ∀ a t, ∃ b, (f a t).outcome = .ok b) :
    (x >>= f).RefusedIff P s := by
  refine of_wp ?_
  unfold wp
  cases ho : (x s).outcome with
  | error e =>
    rw [bind_apply_error ho]
    exact hx.error e ho
  | ok a =>
    obtain ⟨b, hb⟩ := hf a (x s).state
    rw [bind_apply_ok ho, hb]
    exact hx.ok a ho

end RefusedIff

end Act

/-- The coordinates are those of a point. -/
def Coords.Reads {K : Type} (c : Coords K) : Prop := ∃ p, c.toPoint = .ok p

theorem Coords.reads_ofPoint {K : Type} (p : Point K) : (Coords.ofPoint p).Reads := ⟨_, rfl⟩

namespace SpringSpec

variable {K : Type} {c : SpringSpec K} {s : Spring K}

/-- Endpoint A is a node or a point and not both, the ends are apart, and points can be read. -/
structure Proper (c : SpringSpec K) : Prop where
  one : c.a.isSome ↔ c.point = none
  apart : c.a.isSome → c.a ≠ c.b
  point : ∀ p, c.point = some p → p.Reads
  direction : ∀ d, c.direction = some d → d.Reads

theorem proper_of_point (ha : c.a = none) (hd : c.direction = none) :
    c.Proper ↔ ∃ p, c.point = some p ∧ p.Reads := by
  constructor
  · intro h
    cases hp : c.point with
    | none => exact absurd (h.one.2 hp) (by simp [ha])
    | some p => exact ⟨p, rfl, h.point p hp⟩
  · rintro ⟨p, hp, hr⟩
    refine ⟨by simp [ha, hp], by simp [ha], fun p' hp' => ?_, by simp [hd]⟩
    cases hp.symm.trans hp'
    exact hr

theorem proper_of_nodes (hp : c.point = none) (hd : c.direction = none) :
    c.Proper ↔ c.a.isSome ∧ c.a ≠ c.b :=
  ⟨fun h => ⟨h.one.2 hp, h.apart (h.one.2 hp)⟩,
    fun ⟨ha, hne⟩ => ⟨by simp [ha, hp], fun _ => hne, by simp [hp], by simp [hd]⟩⟩

def endpoints (c : SpringSpec K) : List Key :=
  match c.a with
  | none => [c.b]
  | some i => [some i, c.b]

variable [Scalar K]

/-! The parts of `build`. -/

def anchor (c : SpringSpec K) : Except (Failure K) (Anchor K) :=
  match c.a, c.point with
  | none, some p => p.toPoint.map Anchor.point
  | some i, none => if some i = c.b then .error .selfConnection else .ok (.node i)
  | _, _ => .error .oneEndpoint

def heading (c : SpringSpec K) : Except (Failure K) (Point K) :=
  match c.direction with
  | none => .ok Point.zero
  | some d => d.toPoint

/-- The spring between `a` and B. -/
def between (c : SpringSpec K) (a : Anchor K) (direction : Point K) : Spring K :=
  { id := none, kind := c.kind, a := a, b := c.b, constants := c.constants, lower := c.lower,
    upper := c.upper, temporary := c.temporary, expired := false, railDirection := direction,
    atRailEnd := false, strain := Strain.none }

theorem build_eq_ok_iff :
    c.build = .ok s ↔ ∃ a d, c.anchor = .ok a ∧ c.heading = .ok d ∧ c.between a d = s := by
  have heq : c.build = c.anchor.bind fun a => c.heading.bind fun d => .ok (c.between a d) := by
    obtain ⟨kind, constants, a, point, b, lower, upper, temporary, direction⟩ := c
    unfold build anchor heading
    cases a with
    | none => cases point <;> cases direction <;> rfl
    | some i =>
      cases point with
      | none =>
        dsimp only
        split <;> cases direction <;> rfl
      | some p => cases direction <;> rfl
  rw [heq, bind_eq_ok_iff]
  simp only [bind_eq_ok_iff, Except.ok.injEq, exists_and_left]

omit [Scalar K] in
theorem exists_anchor_iff : (∃ a, c.anchor = .ok a) ↔
    (c.a.isSome ↔ c.point = none) ∧ (c.a.isSome → c.a ≠ c.b) ∧
      ∀ p, c.point = some p → p.Reads := by
  unfold anchor
  split
  · next p ha hp => simp [ha, hp, map_eq_ok_iff, Coords.Reads]
  · next i ha hp =>
    split
    · next he => simp [ha, hp, ← he]
    · next hne => simp [ha, hp, hne]
  · next h h' =>
    cases ha : c.a with
    | none =>
      cases hp : c.point with
      | none => simp
      | some p => exact absurd hp (h p ha)
    | some i =>
      cases hp : c.point with
      | none => exact absurd hp (h' i ha)
      | some p => simp

theorem exists_heading_iff : (∃ d, c.heading = .ok d) ↔ ∀ d, c.direction = some d → d.Reads := by
  unfold heading
  cases c.direction <;> simp [Coords.Reads]

/-- A spring can be made exactly of what is proper. -/
theorem exists_build_iff : (∃ s, c.build = .ok s) ↔ c.Proper := by
  have hparts : (∃ s, c.build = .ok s) ↔ (∃ a, c.anchor = .ok a) ∧ ∃ d, c.heading = .ok d := by
    simp only [build_eq_ok_iff]
    constructor
    · rintro ⟨s, a, d, ha, hd, -⟩
      exact ⟨⟨a, ha⟩, d, hd⟩
    · rintro ⟨⟨a, ha⟩, d, hd⟩
      exact ⟨_, a, d, ha, hd, rfl⟩
  rw [hparts, exists_anchor_iff, exists_heading_iff]
  exact ⟨fun ⟨⟨h, h', h''⟩, hd⟩ => ⟨h, h', h'', hd⟩,
    fun h => ⟨⟨h.one, h.apart, h.point⟩, h.direction⟩⟩

theorem endpoints_build (h : c.build = .ok s) : s.endpoints = c.endpoints := by
  obtain ⟨a, d, ha, -, rfl⟩ := build_eq_ok_iff.1 h
  unfold anchor at ha
  unfold Spring.endpoints SpringSpec.endpoints
  split at ha
  · next p hna hp =>
    obtain ⟨q, -, rfl⟩ := map_eq_ok_iff.1 ha
    simp [hna, between]
  · next i hi hp =>
    split at ha
    · cases ha
    · cases ha
      simp [hi, between]
  · cases ha

end SpringSpec

namespace Scene

open Act

variable {K : Type} {w : Scene K} {k : Key}

theorem isNode_none (w : Scene K) : w.isNode none = false := by
  simp [isNode, node?]

theorem needNode_refused (w : Scene K) (k : Key) : (needNode k).RefusedIff (¬ w.isNode k) w := by
  refine .of_wp ?_
  rw [wp_needNode, isNode]
  cases w.node? k with
  | none => exact ⟨by simp, rfl⟩
  | some n => simp

theorem needNode_look (w : Scene K) (k : Key) : (needNode k).wp (fun _ t => t = w) w := by
  rw [wp_needNode]
  split <;> rfl

theorem needNodes_refused (w : Scene K) (ks : List Key) :
    (needNodes ks).RefusedIff (∃ k ∈ ks, ¬ w.isNode k) w := by
  unfold needNodes
  induction ks with
  | nil => exact (RefusedIff.pure ()).congr (by simp)
  | cons k ks ih =>
    rw [forEach_cons]
    have hk : (do let _ ← needNode k : Act K (Scene K) Unit).RefusedIff (¬ w.isNode k) w :=
      (needNode_refused w k).andThen fun _ _ => ⟨(), rfl⟩
    exact (hk.bind (wp_bind_check (needNode_look w k) rfl fun _ => rfl) fun _ _ => ih).congr
      (by simp)

variable [Scalar K]

theorem addNode_refused (w : Scene K) (spot : Coords K) :
    (addNode spot).RefusedIff (¬ spot.Reads) w :=
  (RefusedIff.ofExcept _).andThen fun _ _ => ⟨_, rfl⟩

theorem putNode_refused (w : Scene K) (k : Key) (spot : Coords K) :
    (putNode k spot).RefusedIff (¬ w.isNode k ∨ ¬ spot.Reads) w :=
  (needNode_refused w k).bind (needNode_look w k) fun _ _ =>
    (RefusedIff.ofExcept _).andThen fun _ _ => ⟨_, rfl⟩

theorem needSpring_refused (w : Scene K) (k : Key) :
    (needSpring k).RefusedIff (∀ r ∈ w.graph.listed, (w.spring r).id ≠ k) w := by
  unfold needSpring
  refine .read ?_
  rw [← springRef?_eq_none_iff]
  cases w.springRef? k with
  | none => exact (RefusedIff.fail _).congr (by simp)
  | some r => exact (RefusedIff.pure r).congr (by simp)

theorem makeSpring_refused (w : Scene K) (c : SpringSpec K) :
    (Op.makeSpring c).act.RefusedIff (¬ c.Proper) w := by
  rw [← SpringSpec.exists_build_iff]
  exact (RefusedIff.ofExcept _).andThen fun _ _ => ⟨_, rfl⟩

theorem enterSpring_refused (h : w.Sound) (r : Ref) :
    (enterSpring r).RefusedIff
      (r ∈ w.graph.listed ∨ ∃ k ∈ (w.spring r).endpoints, ¬ w.isNode k) w := by
  have htail : (do
      needNodes (w.spring r).endpoints
      change (·.enlist r)
      report (.springAdded w.graph.nextSpring) : Act K (Scene K) Unit).RefusedIff
        (∃ k ∈ (w.spring r).endpoints, ¬ w.isNode k) w :=
    (needNodes_refused w _).andThen fun _ _ => ⟨_, rfl⟩
  unfold enterSpring
  refine .read (.report ?_)
  cases hid : (w.spring r).id with
  | none =>
    have hr : r ∉ w.graph.listed := fun hr => by
      obtain ⟨i, hi, -⟩ := h.spring_lt r hr
      cases hid.symm.trans hi
    exact htail.congr (by simp [hr])
  | some i =>
    have hname : w.springRef? (some i) = some r ↔ r ∈ w.graph.listed := by
      rw [h.springRef?_iff, and_iff_left hid]
    dsimp only
    split
    · next hl => exact ((RefusedIff.fail _).bind rfl fun _ _ => htail).congr (by simp [hname.1 hl])
    · next hl => exact htail.congr (by simp [mt hname.2 hl])

/-- A new spring is refused if it is not proper or its nodes are not there. -/
theorem enterNew_refused (w : Scene K) (c : SpringSpec K) :
    (enterNew c).RefusedIff (¬ c.Proper ∨ ∃ k ∈ c.endpoints, ¬ w.isNode k) w := by
  unfold enterNew
  rw [← SpringSpec.exists_build_iff]
  refine (RefusedIff.ofExcept _).bind rfl fun s hs => .report ?_
  have hends : s.endpoints = c.endpoints := SpringSpec.endpoints_build hs
  rw [hends]
  exact (needNodes_refused w _).andThen fun _ _ => ⟨_, rfl⟩

omit [Scalar K] in
/-- To look constants up is no reason to be refused, be they numbers or not. -/
theorem bind_constants_refused {kind : SpringKind} {α : Type}
    {f : Option (Constants K) → Act K (Scene K) α} {P : Prop}
    (hf : (f (w.graph.config.constants kind)).RefusedIff P w) :
    (constants kind >>= f).RefusedIff P w :=
  ⟨hf.error, hf.ok⟩

theorem pin_refused (w : Scene K) (k : Key) (spot : Option (Coords K)) :
    (pin k spot).RefusedIff (¬ w.isNode k ∨ ∃ c, spot = some c ∧ ¬ c.Reads) w := by
  have hrest : ∀ p : Coords K,
      (constants .affix >>= fun c => enterNew (.affix c k (some p))).RefusedIff
        (¬ w.isNode k ∨ ¬ p.Reads) w := fun p => by
    refine bind_constants_refused ((enterNew_refused w _).congr ?_)
    rw [SpringSpec.proper_of_point rfl rfl]
    simp [SpringSpec.affix, SpringSpec.held, SpringSpec.endpoints, or_comm]
  unfold pin
  cases spot with
  | some c => exact (hrest c).congr (by simp)
  | none =>
    have hn : ∀ n : Node K, (constants .affix >>= fun c =>
        enterNew (.affix c k (some (Coords.ofPoint n.position)))).RefusedIff (¬ w.isNode k) w :=
      fun n => (hrest _).congr (by simp [Coords.reads_ofPoint])
    exact ((needNode_refused w k).bind (needNode_look w k) fun n _ => hn n).congr (by simp)

theorem tie_refused (w : Scene K) (a b : Key) (lower upper : Option (Number K)) :
    (tie a b lower upper).RefusedIff (¬ w.isNode a ∨ ¬ w.isNode b ∨ a = b) w := by
  refine bind_constants_refused ((enterNew_refused w _).congr ?_)
  rw [SpringSpec.proper_of_nodes rfl rfl]
  cases a with
  | none => simp [SpringSpec.distance, isNode_none]
  | some i =>
    let c := SpringSpec.distance (w.graph.config.constants .distance) (some i) b lower upper
    have hsame : ¬ (c.a.isSome ∧ c.a ≠ c.b) ↔ some i = b := by simp [c, SpringSpec.distance]
    have hends : (∃ k ∈ c.endpoints, ¬ w.isNode k) ↔ ¬ w.isNode (some i) ∨ ¬ w.isNode b := by
      simp [c, SpringSpec.distance, SpringSpec.endpoints]
    rw [hsame, hends, or_comm, or_assoc]

theorem follow_refused (w : Scene K) (k : Key) (spot : Option (Coords K)) :
    (follow k spot).RefusedIff (¬ w.isNode k ∨ ¬ ∃ c, spot = some c ∧ c.Reads) w := by
  refine bind_constants_refused ((enterNew_refused w _).congr ?_)
  rw [SpringSpec.proper_of_point rfl rfl]
  simp [SpringSpec.followPencil, SpringSpec.held, SpringSpec.endpoints, or_comm]

omit [Scalar K] in
theorem connect_refused (w : Scene K) (k l : Key) :
    (connect k l).RefusedIff (¬ w.isNode k ∨ ¬ w.isNode l ∨ k = l) w := by
  have hjoins : ¬ (k ≠ l ∧ w.isNode k ∧ w.isNode l) ↔ ¬ w.isNode k ∨ ¬ w.isNode l ∨ k = l := by
    tauto
  refine .congr (.of_wp ((connect_spec w k l).mono fun o t h => ?_)) hjoins
  cases o with
  | error e => exact h
  | ok c => exact not_not.2 h.1

end Scene

namespace Bench

open Act

/-- After every run a call that builds on the scene is refused for a point that cannot be read, an
endpoint that is not there, endpoints that are the same or a spring that is listed already, and for
nothing else; where it is refused nothing has changed. -/
theorem refused_after_run {K : Type} [Scalar K] (c : Config K) (springs : Arena (Spring K))
    (quantities : Arena (Quantity K)) (ops : List (Op K)) :
    let w := (after ops (empty c springs quantities)).toScene
    (∀ spot, (Scene.addNode spot).RefusedIff (¬ spot.Reads) w) ∧
      (∀ k spot, (Scene.putNode k spot).RefusedIff (¬ w.isNode k ∨ ¬ spot.Reads) w) ∧
      (∀ k l, (Scene.connect k l).RefusedIff (¬ w.isNode k ∨ ¬ w.isNode l ∨ k = l) w) ∧
      (∀ s, (Scene.Op.makeSpring s).act.RefusedIff (¬ s.Proper) w) ∧
      (∀ r, (Scene.enterSpring r).RefusedIff
        (r ∈ w.graph.listed ∨ ∃ k ∈ (w.spring r).endpoints, ¬ w.isNode k) w) ∧
      (∀ k spot, (Scene.pin k spot).RefusedIff
        (¬ w.isNode k ∨ ∃ p, spot = some p ∧ ¬ p.Reads) w) ∧
      (∀ a b lower upper, (Scene.tie a b lower upper).RefusedIff
        (¬ w.isNode a ∨ ¬ w.isNode b ∨ a = b) w) ∧
      (∀ k spot, (Scene.follow k spot).RefusedIff
        (¬ w.isNode k ∨ ¬ ∃ p, spot = some p ∧ p.Reads) w) ∧
      ∀ k, (Scene.needSpring k).RefusedIff (∀ r ∈ w.graph.listed, (w.spring r).id ≠ k) w := by
  intro w
  have h : w.Sound := (sound_after c springs quantities ops).scene
  exact ⟨w.addNode_refused, w.putNode_refused, w.connect_refused, w.makeSpring_refused,
    Scene.enterSpring_refused h, w.pin_refused, w.tie_refused, w.follow_refused,
    w.needSpring_refused⟩

end Bench

end Linkage
