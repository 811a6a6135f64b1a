import Linkage.Proofs.Scene.Run
import Linkage.Proofs.Scene.Twin

/-!
# Operations on twin scenes

Each operation of a scene, done on two scenes that are one scene under other names of springs,
fails on both or on neither and leaves such scenes again. The springs that it names go by their own
names on either side (`Scene.Op.under`).
-/

namespace Linkage

open Act

variable {K : Type} [Scalar K]

/-! ### What does not look at the id of a spring -/

namespace Spring

/-- The spring is changed, or this fails, whatever its id is, and the id stays. -/
def Blind (g : Spring K → Except (Failure K) (Spring K)) : Prop :=
  ∀ s k, (∀ e, g s = .error e → ∃ e', g { s with id := k } = .error e') ∧
    ∀ s', g s = .ok s' → g { s with id := k } = .ok { s' with id := k } ∧ s'.id = s.id

omit [Scalar K] in
theorem blind_movePoint (p : Except (Failure K) (Point K)) : Blind (K := K) (·.movePoint p) := by
  intro s k
  unfold movePoint
  dsimp only
  split
  · exact ⟨fun _ _ => ⟨_, rfl⟩, fun _ h => by cases h⟩
  · cases p with
    | error e => exact ⟨fun _ _ => ⟨_, rfl⟩, fun _ h => by cases h⟩
    | ok q =>
      refine ⟨fun _ h => (by cases h), fun s' h => ?_⟩
      cases h
      exact ⟨rfl, rfl⟩

theorem blind_relaxed (a b : Point K) (cap : Option K) :
    Blind fun s => (asNumber cap).map (s.relaxed a b) := by
  intro s k
  cases cap with
  | none => exact ⟨fun _ _ => ⟨_, rfl⟩, fun _ h => by cases h⟩
  | some cap =>
    refine ⟨fun _ h => (by cases h), fun s' h => ?_⟩
    cases h
    exact ⟨rfl, rfl⟩

theorem blind_displaced (a b : Point K) (dt : K) (cap : Option K) :
    Blind fun s => (asNumber cap).bind (s.displaced a b dt) := by
  intro s k
  cases cap with
  | none => exact ⟨fun _ _ => ⟨_, rfl⟩, fun _ h => by cases h⟩
  | some cap =>
    show (∀ e, s.displaced a b dt cap = .error e → ∃ e', displaced { s with id := k } a b dt cap =
      .error e') ∧ ∀ s', s.displaced a b dt cap = .ok s' → displaced { s with id := k } a b dt cap =
        .ok { s' with id := k } ∧ s'.id = s.id
    unfold displaced
    have hcapped : ∀ l, cappedAt { s with id := k } l cap = s.cappedAt l cap := fun _ => rfl
    simp only [hcapped]
    cases divide (s.cappedAt (Point.distance a b) cap - s.strain.previous) dt with
    | error e => exact ⟨fun _ _ => ⟨_, rfl⟩, fun _ h => by cases h⟩
    | ok rate =>
      refine ⟨fun _ h => (by cases h), fun s' h => ?_⟩
      cases h
      exact ⟨rfl, rfl⟩

theorem blind_loaded (a b : Point K) : Blind fun s : Spring K => s.loaded a b := by
  intro s k
  dsimp only
  unfold loaded
  split
  · refine ⟨fun _ h => (by cases h), fun s' h => ?_⟩
    cases h
    exact ⟨rfl, rfl⟩
  · dsimp only
    cases asNumber s.constants with
    | error e => exact ⟨fun _ _ => ⟨_, rfl⟩, fun _ h => by cases h⟩
    | ok c =>
      refine ⟨fun _ h => (by cases h), fun s' h => ?_⟩
      cases h
      exact ⟨rfl, rfl⟩

end Spring

namespace Scene

variable {f : Naming} {P : Ref → Prop} {w t : Scene K} {r : Ref}

namespace Twin

/-! ### Building -/

theorem needNode (h : Twin f P w t) (k : Key) :
    Abreast (Twin f P) (fun n n' w t => n' = n.under f ∧ Twin f P w t) (Scene.needNode k)
      (Scene.needNode k) w t := by
  unfold Scene.needNode
  rw [abreast_bind_read, h.node?]
  cases w.node? k with
  | none => exact h
  | some n => exact ⟨rfl, h⟩

theorem needNodes (h : Twin f P w t) (ks : List Key) :
    Keep (Twin f P) (Scene.needNodes ks) (Scene.needNodes ks) w t :=
  keep_forEach_same h fun k _ _ _ h => (h.needNode k).bind fun _ _ _ _ h => h.2

theorem addNode (h : Twin f P w t) (spot : Coords K) :
    Keep (Twin f P) (Scene.addNode spot) (Scene.addNode spot) w t := by
  unfold Scene.addNode
  refine abreast_bind_ofExcept h _ fun p _ => ?_
  exact h.insertNode p

theorem putNode (h : Twin f P w t) (k : Key) (spot : Coords K) :
    Keep (Twin f P) (Scene.putNode k spot) (Scene.putNode k spot) w t := by
  unfold Scene.putNode
  refine (h.needNode k).bind fun n n' w t h => ?_
  obtain ⟨rfl, h⟩ := h
  refine abreast_bind_ofExcept h _ fun p _ => ?_
  exact h.changeNode (g := (·.place p)) (fun _ => rfl) n.id

/-- A listed spring is refused on both sides, and any other one on neither. -/
theorem enterSpring (h : Twin f P w t) (r : Ref) :
    Keep (Twin f P) (Scene.enterSpring r) (Scene.enterSpring (f.ref r)) w t := by
  have hends : (t.spring (f.ref r)).endpoints = (w.spring r).endpoints :=
    h.field (g := Spring.endpoints) (fun _ _ => rfl) r
  have hrest : Keep (Twin f P)
      (do
        Scene.needNodes (w.spring r).endpoints
        change (·.enlist r)
        report (.springAdded w.graph.nextSpring))
      (do
        Scene.needNodes (t.spring (f.ref r)).endpoints
        change (·.enlist (f.ref r))
        report (.springAdded t.graph.nextSpring)) w t := by
    rw [hends]
    exact (h.needNodes _).bind fun _ _ _ _ h => h.enlist r
  -- the id of a spring that is not listed names no spring, or another one
  have hlisted : ∀ (v : Scene K) r i, v.springRef? i = some r → r ∈ v.graph.listed := fun v r i e =>
    (of_springRef?_eq_some e).1
  unfold Scene.enterSpring
  rw [Keep, abreast_bind_read, abreast_bind_report]
  dsimp only
  by_cases hr : r ∈ w.graph.listed
  · rw [h.id r (.inl hr)]
    cases hid : (w.spring r).id with
    | none => exact hrest
    | some i =>
      have hiff : t.springRef? (some (f.id i)) = some (f.ref r) ↔
          w.springRef? (some i) = some r := by
        rw [show some (f.id i) = f.key (some i) from rfl, h.springRef?]
        cases w.springRef? (some i) <;> simp [f.ref_inj.eq_iff]
      exact abreast_ite hiff h hrest
  · have hnot : ∀ i, w.springRef? i ≠ some r := fun i e => hr (hlisted _ _ _ e)
    have hnot' : ∀ i, t.springRef? i ≠ some (f.ref r) := fun i e =>
      hr (h.mem_listed.1 (hlisted _ _ _ e))
    cases (w.spring r).id <;> cases (t.spring (f.ref r)).id <;>
      simp only [if_neg (hnot _), if_neg (hnot' _)] <;> exact hrest

/-- The new spring is listed on both sides. -/
def Made (f : Naming) (P : Ref → Prop) (r r' : Ref) (w t : Scene K) : Prop :=
  r' = f.ref r ∧ r ∈ w.graph.listed ∧ Twin f P w t

theorem enterNew (h : Twin f P w t) (c : SpringSpec K) :
    Abreast (Twin f P) (Made f P) (Scene.enterNew c) (Scene.enterNew c) w t := by
  unfold Scene.enterNew
  refine abreast_bind_ofExcept h _ fun s hs => ?_
  rw [abreast_bind_report]
  refine (h.needNodes _).bind fun _ _ w t h => ?_
  have hid : s.id = none := by
    obtain ⟨_, _, _, _, rfl⟩ := SpringSpec.build_eq_ok_iff.1 hs
    rfl
  have hnew : f.ref w.springs.fresh = t.springs.fresh := h.fresh 0
  refine ⟨hnew.symm, List.mem_append_right _ (List.mem_singleton_self _), ?_⟩
  have henter := (h.makeSpring hid).enlist w.springs.fresh
  rwa [hnew] at henter

theorem deleteSpring (h : Twin f P w t) (k : Key) :
    Keep (Twin f P) (Scene.deleteSpring k) (Scene.deleteSpring (f.key k)) w t := by
  unfold Scene.deleteSpring
  rw [Keep, abreast_bind_read, h.springRef?]
  cases k with
  | none => exact h
  | some i =>
    cases w.springRef? (some i) with
    | none => exact h
    | some r => exact h.delist i

theorem deleteListed (h : Twin f P w t) (hr : r ∈ w.graph.listed ∨ P r) :
    Keep (Twin f P) (Scene.deleteListed r) (Scene.deleteListed (f.ref r)) w t := by
  unfold Scene.deleteListed
  rw [Keep, abreast_bind_read, h.id r hr]
  exact h.deleteSpring _

/-- A loop over springs that are listed when it begins; on its way they may be gone. -/
theorem forEach_deleteListed (h : Twin f P w t) {l : List Ref} (hl : ∀ r ∈ l, r ∈ w.graph.listed) :
    Keep (Twin f P) (forEach Scene.deleteListed l) (forEach Scene.deleteListed (l.map f.ref)) w
      t := by
  have hknown : Twin f (fun r => r ∈ l ∨ P r) w t :=
    h.forget fun r hr => hr.imp_left (hl r)
  refine (keep_forEach hknown rfl fun r hr _ _ h => h.deleteListed (.inr (.inl hr))).mono ?_ ?_
  · exact fun _ _ h => h.forget fun _ hr => .inr (.inr hr)
  · exact fun _ _ _ _ h => h.forget fun _ hr => .inr (.inr hr)

theorem constants (h : Twin f P w t) (kind : SpringKind) :
    Abreast (Twin f P) (Agreed (Twin f P)) (Scene.constants kind) (Scene.constants kind) w t := by
  unfold Scene.constants
  rw [abreast_bind_read, h.config]
  exact ⟨rfl, h⟩

theorem enterWith (h : Twin f P w t) (kind : SpringKind)
    (spec : Option (Constants K) → SpringSpec K) :
    Abreast (Twin f P) (Made f P) (Scene.constants kind >>= fun c => Scene.enterNew (spec c))
      (Scene.constants kind >>= fun c => Scene.enterNew (spec c)) w t :=
  (h.constants kind).bind_agreed fun _ _ _ h => h.enterNew _

theorem pin (h : Twin f P w t) (k : Key) (spot : Option (Coords K)) :
    Abreast (Twin f P) (Made f P) (Scene.pin k spot) (Scene.pin k spot) w t := by
  unfold Scene.pin
  cases spot with
  | some p => exact h.enterWith .affix fun c => .affix c k (some p)
  | none =>
    refine (h.needNode k).bind fun n n' w t h => ?_
    obtain ⟨rfl, h⟩ := h
    exact h.enterWith .affix fun c => .affix c k (some (Coords.ofPoint n.position))

theorem tie (h : Twin f P w t) (a b : Key) (lower upper : Option (Number K)) :
    Abreast (Twin f P) (Made f P) (Scene.tie a b lower upper) (Scene.tie a b lower upper) w t :=
  h.enterWith .distance fun c => .distance c a b lower upper

theorem follow (h : Twin f P w t) (k : Key) (spot : Option (Coords K)) :
    Abreast (Twin f P) (Made f P) (Scene.follow k spot) (Scene.follow k spot) w t :=
  h.enterWith .followPencil fun c => .followPencil c k spot

/-! ### Springs that change in place -/

/-- A spring is looked up and changed without a look at its id. -/
theorem update (h : Twin f P w t) {g : Spring K → Except (Failure K) (Spring K)}
    {p : Spring K → Spring K} (hg : Spring.Blind g)
    (hp : ∀ s k, p { s with id := k } = { p s with id := k }) (r : Ref) :
    Keep (Twin f P)
      (do
        let s ← ofExcept (g (w.spring r))
        change (·.setSpring r (p s)))
      (do
        let s ← ofExcept (g (t.spring (f.ref r)))
        change (·.setSpring (f.ref r) (p s))) w t := by
  obtain ⟨k, hk⟩ := h.spring r
  have hid := h.id r
  rw [hk] at hid ⊢
  have hgk := hg (w.spring r) k
  cases e : g (w.spring r) with
  | error e' =>
    obtain ⟨e'', he''⟩ := hgk.1 e' e
    rw [he'']
    exact h
  | ok s =>
    obtain ⟨hs, hsid⟩ := hgk.2 s e
    rw [hs]
    refine h.setSpring ⟨k, hp s k⟩ fun hr => ?_
    rw [Spring.id_of_commutes hp, Spring.id_of_commutes hp, hsid]
    exact hid hr

theorem movePoint (h : Twin f P w t) (r : Ref) (spot : Coords K) :
    Keep (Twin f P) (Scene.movePoint r spot) (Scene.movePoint (f.ref r) spot) w t :=
  h.update (g := (·.movePoint spot.toPoint)) (p := fun s => s) (Spring.blind_movePoint _)
    (fun _ _ => rfl) r

theorem boundSpring (h : Twin f P w t) (r : Ref) (lower upper : Option (Number K)) :
    Keep (Twin f P) (Scene.boundSpring r lower upper) (Scene.boundSpring (f.ref r) lower upper) w
      t :=
  h.changeSpring (g := (·.withBounds lower upper)) (fun _ _ => rfl) r

theorem expire (h : Twin f P w t) (r : Ref) :
    Keep (Twin f P) (Scene.expire r) (Scene.expire (f.ref r)) w t :=
  h.changeSpring (g := fun s => { s with expired := true }) (fun _ _ => rfl) r

/-! ### Connections and nodes -/

theorem connect (h : Twin f P w t) (k l : Key) :
    Keep (Twin f P) (Scene.connect k l) (Scene.connect k l) w t := by
  unfold Scene.connect
  refine abreast_ite Iff.rfl h ?_
  refine (h.needNode k).bind fun a a' w t h => ?_
  obtain ⟨rfl, h⟩ := h
  refine (h.needNode l).bind fun b b' w t h => ?_
  obtain ⟨rfl, h⟩ := h
  have hconnections : t.graph.connections = w.graph.connections := by rw [h.graph]; rfl
  dsimp only [Node.under]
  refine abreast_bind_ofExcept h _ fun c _ => ?_
  rw [abreast_bind_read, hconnections]
  cases w.graph.connections.find? fun d => d.sameLine c with
  | some d => exact h
  | none => exact h.insertConnection _

theorem deleteNode (h : Twin f P w t) (k : Key) :
    Keep (Twin f P) (Scene.deleteNode k) (Scene.deleteNode k) w t := by
  unfold Scene.deleteNode
  rw [Keep, abreast_bind_report, abreast_bind_read, h.touching]
  refine abreast_ite (by rw [h.isNode]) ?_ h
  refine (h.forEach_deleteListed fun r hr => List.mem_of_mem_filter hr).bind fun _ _ w t h => ?_
  exact h.eraseNode k

/-! ### A frame -/

theorem observe (h : Twin f P w t)
    {g : Spring K → Point K → Point K → Except (Failure K) (Spring K)}
    (hg : ∀ a b, Spring.Blind (g · a b)) (r : Ref) :
    Keep (Twin f P) (Scene.observe g r) (Scene.observe g (f.ref r)) w t := by
  have hends : t.ends (t.spring (f.ref r)) = w.ends (w.spring r) :=
    (h.ends _).trans (h.field (g := w.ends) (fun _ _ => rfl) r)
  unfold Scene.observe
  rw [Keep, abreast_bind_read]
  dsimp only
  rw [hends]
  refine abreast_bind_ofExcept h _ fun p _ => ?_
  exact h.update (p := fun s => s) (hg p.1 p.2) (fun _ _ => rfl) r

/-- All listed springs, on either side under their own names. -/
theorem forEach_listed (h : Twin f P w t) {x : Ref → Act K (Scene K) Unit}
    (hx : ∀ w t, Twin f P w t → ∀ r, Keep (Twin f P) (x r) (x (f.ref r)) w t) :
    Keep (Twin f P) (forEach x w.graph.listed) (forEach x t.graph.listed) w t :=
  keep_forEach h (by rw [h.graph]; rfl) fun r _ w t h => hx w t h r

theorem relax (h : Twin f P w t) (cap : Option K) :
    Keep (Twin f P) (Scene.relax cap) (Scene.relax cap) w t :=
  h.forEach_listed fun _ _ h => h.observe fun a b => Spring.blind_relaxed a b cap

theorem strain (h : Twin f P w t) (dt : K) (cap : Option K) :
    Keep (Twin f P) (Scene.strain dt cap) (Scene.strain dt cap) w t :=
  h.forEach_listed fun _ _ h r =>
    (h.observe (fun a b => Spring.blind_displaced a b dt cap) r).bind fun _ _ _ _ h =>
      h.observe (fun a b => Spring.blind_loaded a b) r

/-- The springs at a node pull it alike. -/
theorem moved (h : Twin f P w t) (n : Node K) (friction dt : K) :
    (n.under f).moved t.springOf friction dt = (n.moved w.springOf friction dt).under f := by
  have hforce : (n.under f).netForce t.springOf friction = n.netForce w.springOf friction := by
    unfold Node.netForce
    show (n.springIds.map f.id).foldl _ (-friction * n.velocity) = _
    rw [List.foldl_map]
    congr 1
    funext p i
    rcases h.springOf i with ⟨e, e'⟩ | ⟨r, e, e'⟩ <;> rw [e, e']
    exact congrArg (p + ·) (h.field (g := (·.forceAt (some n.id))) (fun _ _ => rfl) r)
  unfold Node.moved
  rw [hforce]
  rfl

theorem substep (h : Twin f P w t) (c : Stepping K) (dt : K) :
    Keep (Twin f P) (Scene.substep c dt) (Scene.substep c dt) w t := by
  unfold Scene.substep
  refine (h.strain dt c.lengthCap).bind fun _ _ w t h => ?_
  rw [abreast_bind_read]
  refine abreast_ite (by rw [h.graph]; simp [Graph.under]) h ?_
  refine abreast_bind_ofExcept h _ fun friction _ => ?_
  exact h.mapNodes fun n => h.moved n friction dt

theorem sweep (h : Twin f P w t) : Keep (Twin f P) Scene.sweep Scene.sweep w t := by
  unfold Scene.sweep
  have hexpired : (t.graph.listed.filter fun r => (t.spring r).expired) =
      (w.graph.listed.filter fun r => (w.spring r).expired).map f.ref := by
    rw [h.graph]
    show (w.graph.listed.map f.ref).filter _ = _
    rw [List.filter_map]
    congr 1
    exact List.filter_congr fun r _ => h.field (g := (·.expired)) (fun _ _ => rfl) r
  rw [Keep, abreast_bind_read, hexpired]
  exact h.forEach_deleteListed fun r hr => List.mem_of_mem_filter hr

theorem advance (h : Twin f P w t) (dt : K) :
    Keep (Twin f P) (Scene.advance dt) (Scene.advance dt) w t := by
  unfold Scene.advance
  refine abreast_ite Iff.rfl h ?_
  rw [abreast_bind_read, h.config]
  refine abreast_bind_ofExcept h _ fun steps _ => ?_
  refine abreast_bind_ofExcept h _ fun sub _ => ?_
  refine (h.relax _).bind fun _ _ w t h => ?_
  refine abreast_bind_ofExcept h _ fun n _ => ?_
  refine (abreast_times h (fun _ _ h => h.substep _ sub) n).bind fun _ _ w t h => ?_
  refine h.sweep.bind fun _ _ w t h => ?_
  exact h

end Twin

/-! ### Any operation -/

namespace Op

/-- The operation, where the springs that it names go by other names. -/
def under (f : Naming) : Op K → Op K
  | enterSpring r => enterSpring (f.ref r)
  | deleteSpring k => deleteSpring (f.key k)
  | movePoint r spot => movePoint (f.ref r) spot
  | boundSpring r lower upper => boundSpring (f.ref r) lower upper
  | expire r => expire (f.ref r)
  | elsewhere r s => elsewhere (f.ref r) { s with id := f.key s.id }
  | o => o

theorem twin (h : Twin f P w t) (o : Op K) : Keep (Twin f P) o.act (o.under f).act w t := by
  have discard : ∀ {α : Type} {x y : Act K (Scene K) α} {Q : α → α → Scene K → Scene K → Prop},
      Abreast (Twin f P) Q x y w t → (∀ a b w t, Q a b w t → Twin f P w t) →
        Keep (Twin f P) (do let _ ← x) (do let _ ← y) w t := fun hx hQ => hx.bind hQ
  cases o with
  | addNode spot => exact discard (h.addNode spot) fun _ _ _ _ h => h
  | deleteNode k => exact h.deleteNode k
  | putNode k spot => exact h.putNode k spot
  | connect k l => exact discard (h.connect k l) fun _ _ _ _ h => h
  | disconnect k l => exact h.eraseConnection k l
  | makeSpring c =>
    refine abreast_bind_ofExcept h _ fun s hs => ?_
    obtain ⟨_, _, _, _, rfl⟩ := SpringSpec.build_eq_ok_iff.1 hs
    exact h.makeSpring rfl
  | enterSpring r => exact h.enterSpring r
  | pin k spot => exact discard (h.pin k spot) fun _ _ _ _ h => h.2.2
  | tie a b lower upper => exact discard (h.tie a b lower upper) fun _ _ _ _ h => h.2.2
  | follow k spot => exact discard (h.follow k spot) fun _ _ _ _ h => h.2.2
  | deleteSpring k => exact h.deleteSpring k
  | movePoint r spot => exact h.movePoint r spot
  | boundSpring r lower upper => exact h.boundSpring r lower upper
  | expire r => exact h.expire r
  | advance dt => exact h.advance dt
  | elsewhere r s =>
    refine abreast_ite h.mem_listed h ?_
    exact h.setSpring ⟨_, rfl⟩ fun _ => rfl

end Op

end Scene

end Linkage
