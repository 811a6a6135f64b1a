import Linkage.Proofs.Scene.Frame

/-!
# Springs of rails keep their bounds

An operation may set the bounds of a spring or make a new one, and does not touch the bounds of
others. `Scene.Spared` says it of the springs of rails, whose bounds nothing but `boundSpring` sets.
-/

namespace Linkage

/-- Without any play, as a rail makes its springs. -/
def Spring.Tight {K : Type} [Scalar K] (s : Spring K) : Prop :=
  s.lower = some (.real 0.0) ∧ s.upper = some (.real 0.0)

namespace Scene

open Act

variable {K : Type} [Scalar K] {w t u : Scene K} {k : Key} {r : Ref}

/-- Springs of rails are such, and within the same bounds. -/
def Spared (w t : Scene K) : Prop :=
  ∀ r, (w.spring r).kind = .rail → (t.spring r).kind = .rail ∧
    (t.spring r).lower = (w.spring r).lower ∧ (t.spring r).upper = (w.spring r).upper

namespace Spared

theorem refl (w : Scene K) : Spared w w := fun _ hk => ⟨hk, rfl, rfl⟩

theorem trans (h : Spared w t) (h' : Spared t u) : Spared w u := by
  intro r hk
  obtain ⟨hk', hlo, hhi⟩ := h r hk
  obtain ⟨hk'', hlo', hhi'⟩ := h' r hk'
  exact ⟨hk'', hlo'.trans hlo, hhi'.trans hhi⟩

theorem tight (h : Spared w t) (hk : (w.spring r).kind = .rail) (ht : (w.spring r).Tight) :
    (t.spring r).Tight := by
  obtain ⟨-, hlo, hhi⟩ := h r hk
  exact ⟨hlo.trans ht.1, hhi.trans ht.2⟩

theorem of_eq (h : ∀ r, (w.spring r).kind = .rail → t.spring r = w.spring r) : Spared w t := by
  intro r hk
  rw [h r hk]
  exact ⟨hk, rfl, rfl⟩

theorem of_springs (h : t.springs = w.springs) : Spared w t :=
  of_eq fun r _ => congrArg (·.get r) h

theorem setSpring {s : Spring K} (hs : (w.spring r).kind = .rail → s.kind = .rail ∧
    s.lower = (w.spring r).lower ∧ s.upper = (w.spring r).upper) : Spared w (w.setSpring r s) := by
  intro r' hk
  rcases spring_setSpring w r s r' with e | ⟨rfl, e⟩
  · rw [e]
    exact ⟨hk, rfl, rfl⟩
  · rw [e]
    exact hs hk

/-- A new object is where there was none. -/
theorem of_lt_size (h : ∀ r < w.springs.size, t.spring r = w.spring r) : Spared w t := by
  refine of_eq fun r hk => h r (Nat.lt_of_not_le fun hr => ?_)
  rw [spring, Arena.get_of_size_le hr] at hk
  cases hk

theorem makeSpring (w : Scene K) (s : Spring K) : Spared w (w.makeSpring s) :=
  of_lt_size fun _ => Arena.get_alloc_of_lt

theorem enlist (w : Scene K) (r : Ref) : Spared w (w.enlist r) :=
  setSpring (s := { w.spring r with id := some w.graph.nextSpring }) fun hk => ⟨hk, rfl, rfl⟩

end Spared

theorem Struck.spared (h : Struck w t) : Spared w t := .of_springs h.springs

theorem Entered.spared {s : Spring K} (h : Entered w t s) : Spared w t := .of_lt_size h.rest

theorem Strained.spared (h : Strained w t) : Spared w t := by
  intro r hk
  rw [h.spring r]
  exact ⟨hk, rfl, rfl⟩

/-! ### Operations -/

theorem enterNew_spared (w : Scene K) (c : SpringSpec K) :
    (enterNew c).wp (fun _ t => Spared w t) w := by
  refine (enterNew_spec w c).mono fun o t ht => ?_
  cases o with
  | error e =>
    rw [show t = w from ht]
    exact .refl w
  | ok r =>
    obtain ⟨rfl, s, -, -, rfl⟩ := ht
    exact (Spared.makeSpring w s).trans (.enlist _ _)

theorem enterSpring_spared (h : w.Sound) (r : Ref) :
    (enterSpring r).wp (fun _ t => Spared w t) w := by
  refine (enterSpring_spec h r).mono fun _ t => ?_
  rintro (ht | ⟨-, -, ht⟩) <;> rw [ht]
  · exact .refl w
  · exact .enlist w r

theorem pin_spared (w : Scene K) (k : Key) (spot : Option (Coords K)) :
    (pin k spot).wp (fun _ t => Spared w t) w :=
  pin_keep (.refl w) (fun c _ => enterNew_spared w c) k spot

theorem tie_spared (w : Scene K) (a b : Key) (lower upper : Option (Number K)) :
    (tie a b lower upper).wp (fun _ t => Spared w t) w :=
  tie_keep (fun c _ => enterNew_spared w c) a b lower upper

theorem follow_spared (w : Scene K) (k : Key) (spot : Option (Coords K)) :
    (follow k spot).wp (fun _ t => Spared w t) w :=
  follow_keep (fun c _ => enterNew_spared w c) k spot

theorem addNode_spared (w : Scene K) (spot : Coords K) :
    (addNode spot).wp (fun _ t => Spared w t) w :=
  addNode_keep (.refl w) (fun _ => .of_springs rfl) spot

theorem putNode_spared (w : Scene K) (k : Key) (spot : Coords K) :
    (putNode k spot).wp (fun _ t => Spared w t) w :=
  putNode_keep (.refl w) (fun _ _ => .of_springs rfl) k spot

theorem connect_spared (w : Scene K) (k l : Key) :
    (connect k l).wp (fun _ t => Spared w t) w :=
  connect_keep (.refl w) (fun _ _ _ _ => .of_springs rfl) k l

theorem deleteNode_spared (h : w.Sound) (k : Key) :
    (deleteNode k).wp (fun _ t => Spared w t) w :=
  (deleteNode_spec h k).mono fun _ _ ht => .of_springs ht.2.springs

theorem movePoint_spared (w : Scene K) (r : Ref) (spot : Coords K) :
    (movePoint r spot).wp (fun _ t => Spared w t) w := by
  unfold movePoint
  rw [wp_bind, wp_read, next_ok, wp_bind, wp_ofExcept]
  cases hm : (w.spring r).movePoint spot.toPoint with
  | error e => exact .refl w
  | ok s =>
    obtain ⟨-, hk, -, hlo, hhi⟩ := movePoint_keeps hm
    exact .setSpring fun hk' => ⟨hk.trans hk', hlo, hhi⟩

theorem expire_spared (w : Scene K) (r : Ref) : (expire r).wp (fun _ t => Spared w t) w :=
  Spared.setSpring fun hk => ⟨hk, rfl, rfl⟩

theorem advance_spared (h : w.Sound) (dt : K) : (advance dt).wp (fun _ t => Spared w t) w := by
  refine (advance_spec h dt).mono fun _ t => ?_
  rintro ⟨-, u, hu, ht⟩
  exact hu.spared.trans ht.spared

end Scene

end Linkage
