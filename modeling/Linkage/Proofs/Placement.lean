import Linkage.Bench
import Linkage.Proofs.Mirror
import Linkage.Proofs.Rigid
import Linkage.Proofs.Scene.Change

/-!
# A bench in another place

A rigid motion takes a bench to another place of the plane: it moves every node and every fixed
point of a spring, and turns every velocity, every direction of a rail and the direction that a
spring has found in a sub-step. Nothing that the solver computes depends on the place. A frame of
the bench that was moved is the frame of the bench, moved, and fails where that fails
(`Bench.frame_placed`).
-/

namespace Linkage

open Act

namespace Rigid

variable (T : Rigid)

noncomputable def anchor : Anchor ℝ → Anchor ℝ
  | .point p => .point (T.move p)
  | .node i => .node i

noncomputable def spring (s : Spring ℝ) : Spring ℝ :=
  { s with
    a := T.anchor s.a
    railDirection := T.turn s.railDirection
    strain := { s.strain with direction := T.turn s.strain.direction } }

noncomputable def node (n : Node ℝ) : Node ℝ :=
  { n with position := T.move n.position, velocity := T.turn n.velocity }

noncomputable def scene (w : Scene ℝ) : Scene ℝ where
  springs := ⟨w.springs.cells.map T.spring⟩
  graph := { w.graph with nodes := w.graph.nodes.map T.node }

noncomputable def sketch (w : Sketch ℝ) : Sketch ℝ := { w with toScene := T.scene w.toScene }

noncomputable def bench (w : Bench ℝ) : Bench ℝ := { w with toSketch := T.sketch w.toSketch }

noncomputable def pair (p : Point ℝ × Point ℝ) : Point ℝ × Point ℝ := (T.move p.1, T.move p.2)

end Rigid

variable {T : Rigid}

/-! ### Springs -/

namespace Spring

variable {s : Spring ℝ} {a b : Point ℝ} {h cap : ℝ}

theorem key_placed (s : Spring ℝ) : (T.spring s).a.key = s.a.key := by
  show (T.anchor s.a).key = s.a.key
  cases s.a <;> rfl

theorem relaxed_placed (s : Spring ℝ) (a b : Point ℝ) (cap : ℝ) :
    (T.spring s).relaxed (T.move a) (T.move b) cap = T.spring (s.relaxed a b cap) := by
  unfold relaxed
  rw [T.distance_move]
  rfl

theorem displaced_placed (s : Spring ℝ) (a b : Point ℝ) (h cap : ℝ) :
    (T.spring s).displaced (T.move a) (T.move b) h cap = (s.displaced a b h cap).map T.spring := by
  have hcapped : ∀ l, (T.spring s).cappedAt l cap = s.cappedAt l cap := fun _ => rfl
  simp only [displaced, T.distance_move, hcapped]
  show (divide (s.cappedAt (Point.distance a b) cap - s.strain.previous) h >>= _) = _
  cases divide (s.cappedAt (Point.distance a b) cap - s.strain.previous) h <;> rfl

theorem loaded_placed (s : Spring ℝ) (a b : Point ℝ) :
    (T.spring s).loaded (T.move a) (T.move b) = (s.loaded a b).map T.spring := by
  unfold loaded
  rw [T.distance_move]
  split
  · simp [Rigid.spring, pure, Except.pure, Except.map]
  · next hd =>
    rw [T.ofAngle_angle_move (not_lt.1 hd)]
    show (asNumber s.constants >>= _) = _
    cases asNumber s.constants <;> rfl

theorem pull_placed (s : Spring ℝ) : (T.spring s).pull = T.turn s.pull := by
  unfold pull
  show (if s.kind = .rail ∧ s.atRailEnd = false then
      Point.dot (s.strain.force * T.turn s.strain.direction)
        (Point.unit (T.turn s.railDirection).perp) * Point.unit (T.turn s.railDirection).perp
    else s.strain.force * T.turn s.strain.direction) = _
  rw [← T.turn_mul, ← T.turn_perp, T.unit_turn, T.dot_turn, ← T.turn_mul]
  split <;> rfl

theorem forceAt_placed (s : Spring ℝ) (k : Key) :
    (T.spring s).forceAt k = T.turn (s.forceAt k) := by
  unfold forceAt
  rw [pull_placed, key_placed]
  show (if k = s.b then _ else _) = _
  split
  · rfl
  · split
    · rw [map_neg]
    · rw [T.turn_zero]

theorem movePoint_placed (s : Spring ℝ) (p : Point ℝ) :
    (T.spring s).movePoint (.ok (T.move p)) = (s.movePoint (.ok p)).map T.spring := by
  cases ha : s.a <;> simp [movePoint, Rigid.spring, Rigid.anchor, ha, Except.map]

end Spring

/-! ### Nodes -/

namespace Node

theorem netForce_placed (n : Node ℝ) (springOf : Id → Option (Spring ℝ)) (friction : ℝ) :
    (T.node n).netForce (fun i => (springOf i).map T.spring) friction =
      T.turn (n.netForce springOf friction) := by
  unfold netForce
  show n.springIds.foldl _ (-friction * T.turn n.velocity) = _
  rw [← T.turn_mul]
  -- the force begins with friction, but the springs turn whatever it begins with
  generalize -friction * n.velocity = f
  induction n.springIds generalizing f with
  | nil => rfl
  | cons i is ih =>
    rw [List.foldl_cons, List.foldl_cons, ← ih]
    congr 1
    dsimp only
    cases springOf i with
    | none => rfl
    | some s =>
      show T.turn f + (T.spring s).forceAt (some n.id) = T.turn (f + s.forceAt (some n.id))
      rw [Spring.forceAt_placed, map_add]

theorem moved_placed (n : Node ℝ) (springOf : Id → Option (Spring ℝ)) (friction h : ℝ) :
    (T.node n).moved (fun i => (springOf i).map T.spring) friction h =
      T.node (n.moved springOf friction h) := by
  unfold moved
  rw [netForce_placed]
  unfold step
  have hv : (T.node n).velocity + h * T.turn (n.netForce springOf friction) =
      T.turn (n.velocity + h * n.netForce springOf friction) := by
    rw [map_add, T.turn_mul]
    rfl
  rw [hv]
  show ({ T.node n with
    velocity := T.turn _
    position := T.move n.position + h * T.turn _ } : Node ℝ) = _
  rw [← T.turn_mul, ← T.move_add_turn]
  rfl

end Node

/-! ### Scenes -/

namespace Scene

variable {w : Scene ℝ} {r : Ref} {k : Key}

theorem size_placed (T : Rigid) (w : Scene ℝ) : (T.scene w).springs.size = w.springs.size :=
  Array.size_map

theorem ends_default (w : Scene ℝ) : w.ends default = .error .endpointLost := by
  have hnone : w.node? none = none := List.find?_eq_none.2 (by simp)
  have hlost : w.position none = .error .endpointLost := by rw [position, hnone]
  show (w.position none >>= fun b => _) = _
  rw [hlost]
  rfl

theorem spring_placed (hr : r < w.springs.size) : (T.scene w).spring r = T.spring (w.spring r) := by
  have hr : r < w.springs.cells.size := hr
  simp [spring, Arena.get, Rigid.scene, Array.getD, hr]

/-- What is the same of a spring in every place is the same of each object, be there one or not. -/
theorem field_placed {α : Type} {f : Spring ℝ → α} (hf : ∀ s, f (T.spring s) = f s) (w : Scene ℝ)
    (r : Ref) : f ((T.scene w).spring r) = f (w.spring r) := by
  by_cases hr : r < w.springs.size
  · rw [spring_placed hr, hf]
  · have hr := Nat.not_lt.1 hr
    rw [spring, Arena.get_of_size_le (size_placed T w ▸ hr), spring, Arena.get_of_size_le hr]

theorem id_placed (T : Rigid) (w : Scene ℝ) (r : Ref) :
    ((T.scene w).spring r).id = (w.spring r).id :=
  field_placed (f := (·.id)) (fun _ => rfl) w r

theorem expired_placed (T : Rigid) (w : Scene ℝ) (r : Ref) :
    ((T.scene w).spring r).expired = (w.spring r).expired :=
  field_placed (f := (·.expired)) (fun _ => rfl) w r

theorem springRef?_placed (T : Rigid) (w : Scene ℝ) (k : Key) :
    (T.scene w).springRef? k = w.springRef? k := by
  unfold springRef?
  simp only [id_placed]
  rfl

theorem node?_placed (T : Rigid) (w : Scene ℝ) (k : Key) :
    (T.scene w).node? k = (w.node? k).map T.node := by
  unfold node?
  show (w.graph.nodes.map T.node).find? _ = _
  rw [List.find?_map]
  rfl

theorem isNode_placed (T : Rigid) (w : Scene ℝ) (k : Key) : (T.scene w).isNode k = w.isNode k := by
  rw [isNode, node?_placed, Option.isSome_map]
  rfl

theorem position_placed (T : Rigid) (w : Scene ℝ) (k : Key) :
    (T.scene w).position k = (w.position k).map T.move := by
  unfold position
  rw [node?_placed]
  cases w.node? k <;> rfl

theorem ends_placed (T : Rigid) (w : Scene ℝ) (s : Spring ℝ) :
    (T.scene w).ends (T.spring s) = (w.ends s).map T.pair := by
  have hb : (T.spring s).b = s.b := rfl
  cases ha : s.a with
  | point p =>
    have ha' : (T.spring s).a = .point (T.move p) := congrArg T.anchor ha
    simp only [ends, ha, ha', hb, position_placed]
    cases w.position s.b <;> rfl
  | node i =>
    have ha' : (T.spring s).a = .node i := congrArg T.anchor ha
    simp only [ends, ha, ha', hb, position_placed]
    cases w.position (some i) with
    | error e => rfl
    | ok p => cases w.position s.b <;> rfl

theorem setSpring_placed (T : Rigid) (w : Scene ℝ) (r : Ref) (s : Spring ℝ) :
    (T.scene w).setSpring r (T.spring s) = T.scene (w.setSpring r s) := by
  unfold setSpring Rigid.scene Arena.set
  simp

theorem changeSpring_placed (T : Rigid) (w : Scene ℝ) (r : Ref) {f : Spring ℝ → Spring ℝ}
    (hf : ∀ s, f (T.spring s) = T.spring (f s)) :
    (T.scene w).changeSpring r f = T.scene (w.changeSpring r f) := by
  unfold changeSpring
  by_cases hr : r < w.springs.size
  · rw [spring_placed hr, hf, setSpring_placed]
  · have hr := Nat.not_lt.1 hr
    rw [setSpring_of_size_le hr, setSpring_of_size_le (size_placed T w ▸ hr)]

theorem springOf_placed (T : Rigid) (w : Scene ℝ) (i : Id) :
    (T.scene w).springOf i = (w.springOf i).map T.spring := by
  -- the object found last, and not the spring, is what both scenes have in common
  have hfind : ∀ w : Scene ℝ, w.springOf i =
      (w.graph.listed.reverse.find? fun r => (w.spring r).id == some i).map w.spring := fun w => by
    unfold springOf members
    rw [← List.map_reverse, List.find?_map]
    rfl
  rw [hfind, hfind]
  simp only [id_placed]
  show (w.graph.listed.reverse.find? _).map _ = _
  cases e : w.graph.listed.reverse.find? fun r => (w.spring r).id == some i with
  | none => rfl
  | some r =>
    have hid : (w.spring r).id = some i := by simpa using List.find?_some e
    exact congrArg some (spring_placed (lt_size_of_id hid))

theorem delist_placed (T : Rigid) (w : Scene ℝ) (i : Id) :
    (T.scene w).delist i = T.scene (w.delist i) := by
  unfold delist
  simp only [id_placed]
  simp only [Rigid.scene, List.map_map]
  rfl

theorem move_placed (T : Rigid) (w : Scene ℝ) (friction h : ℝ) :
    (T.scene w).move friction h = T.scene (w.move friction h) := by
  have hsprings : (T.scene w).springOf = fun i => (w.springOf i).map T.spring :=
    funext (springOf_placed T w)
  unfold move mapNodes
  rw [hsprings]
  simp only [Rigid.scene, List.map_map, Function.comp_def, Node.moved_placed]

/-! ### A frame of a scene -/

theorem observe_mirrors {f : Spring ℝ → Point ℝ → Point ℝ → Except (Failure ℝ) (Spring ℝ)}
    (hf : ∀ s a b, f (T.spring s) (T.move a) (T.move b) = (f s a b).map T.spring) (r : Ref) :
    Mirrors T.scene id (observe f r) (observe f r) := by
  unfold observe
  refine mirrors_bind_read fun w => ?_
  by_cases hr : r < w.springs.size
  · rw [spring_placed hr]
    refine mirrors_bind (mirrors_ofExcept (ends_placed T w _)) fun p => ?_
    refine mirrors_bind (mirrors_ofExcept (hf _ p.1 p.2)) fun s => ?_
    exact mirrors_change fun v => setSpring_placed T v r s
  · -- without an object there is a spring at no node, on both sides, and looking at it fails
    have hends : ∀ w : Scene ℝ, w.springs.size ≤ r → w.ends (w.spring r) = .error .endpointLost :=
      fun w hr => by rw [spring, Arena.get_of_size_le hr, ends_default]
    dsimp only
    rw [hends w (Nat.not_lt.1 hr), hends (T.scene w) (size_placed T w ▸ Nat.not_lt.1 hr)]
    exact mirrors_error_bind

theorem relax_mirrors (cap : Option ℝ) : Mirrors T.scene id (relax cap) (relax cap) := by
  unfold relax
  refine mirrors_bind_read fun w => mirrors_forEach (observe_mirrors fun s a b => ?_) _
  cases cap with
  | none => rfl
  | some cap => exact congrArg Except.ok (Spring.relaxed_placed s a b cap)

theorem strain_mirrors (h : ℝ) (cap : Option ℝ) :
    Mirrors T.scene id (strain h cap) (strain h cap) := by
  unfold strain
  refine mirrors_bind_read fun w => mirrors_forEach (fun r => ?_) _
  refine mirrors_bind (observe_mirrors (fun s a b => ?_) r) fun _ =>
    observe_mirrors Spring.loaded_placed r
  cases cap with
  | none => rfl
  | some cap => exact Spring.displaced_placed s a b h cap

theorem substep_mirrors (c : Stepping ℝ) (h : ℝ) :
    Mirrors T.scene id (substep c h) (substep c h) := by
  unfold substep
  refine mirrors_bind (strain_mirrors h _) fun _ => mirrors_bind_read fun w => ?_
  refine mirrors_ite (by simp [Rigid.scene]) (mirrors_pure ()) ?_
  refine mirrors_bind (mirrors_ofExcept_id _) fun friction => ?_
  exact mirrors_change fun v => move_placed T v friction h

theorem deleteSpring_mirrors (k : Key) :
    Mirrors T.scene id (deleteSpring (K := ℝ) k) (deleteSpring k) := by
  unfold deleteSpring
  refine mirrors_bind_read fun w => ?_
  rw [springRef?_placed]
  split
  · refine mirrors_bind (mirrors_change fun v => delist_placed T v _) fun _ => ?_
    exact mirrors_report _ _
  · exact mirrors_report _ _

theorem deleteListed_mirrors (r : Ref) :
    Mirrors T.scene id (deleteListed (K := ℝ) r) (deleteListed r) := by
  unfold deleteListed
  refine mirrors_bind_read fun w => ?_
  rw [id_placed]
  exact deleteSpring_mirrors _

theorem sweep_mirrors : Mirrors T.scene id (sweep (K := ℝ)) sweep := by
  unfold sweep
  refine mirrors_bind_read fun w => ?_
  simp only [expired_placed]
  exact mirrors_forEach deleteListed_mirrors _

theorem advance_mirrors (dt : ℝ) : Mirrors T.scene id (advance dt) (advance dt) := by
  unfold advance
  refine mirrors_ite Iff.rfl (mirrors_pure ()) ?_
  refine mirrors_bind_read fun w => ?_
  refine mirrors_bind (mirrors_ofExcept_id _) fun steps => ?_
  refine mirrors_bind (mirrors_ofExcept_id _) fun dh => ?_
  refine mirrors_bind (relax_mirrors _) fun _ => ?_
  refine mirrors_bind (mirrors_ofExcept_id _) fun n => ?_
  refine mirrors_bind (mirrors_times (substep_mirrors _ _) _) fun _ => ?_
  refine mirrors_bind sweep_mirrors fun _ => mirrors_bind_read fun v => ?_
  exact mirrors_report _ _

end Scene

/-! ### Quantities -/

namespace Quantity

variable (q : Quantity ℝ) (w : Scene ℝ)

theorem position_placed (T : Rigid) (i : Id) :
    q.position (T.scene w) i = (q.position w i).map T.move := by
  unfold position
  rw [Scene.node?_placed]
  cases w.node? (some i) <;> rfl

theorem ends_placed (T : Rigid) : q.ends (T.scene w) = (q.ends w).map T.pair := by
  have pair : ∀ i j, (do return (← q.position (T.scene w) i, ← q.position (T.scene w) j) :
      Except (Failure ℝ) (Point ℝ × Point ℝ)) =
        (do return (← q.position w i, ← q.position w j)).map T.pair := fun i j => by
    rw [position_placed, position_placed]
    cases q.position w i with
    | error e => rfl
    | ok a => cases q.position w j <;> rfl
  unfold ends
  split
  · rfl
  · rw [position_placed]
    cases q.position w _ <;> rfl
  · exact pair _ _
  · exact pair _ _

theorem read_placed (T : Rigid) : q.read (T.scene w) = q.read w := by
  unfold read
  rw [ends_placed]
  cases q.ends w with
  | error e => rfl
  | ok p =>
    obtain ⟨a, b⟩ := p
    simp only [Except.map, Rigid.pair, bind, Except.bind, position_placed, arms]
    cases q.kind with
    | distance => simp only [T.distance_move]
    | angle i =>
      dsimp only
      cases q.position w i <;> simp only [T.distance_move]
    | rail =>
      cases q.captives with
      | nil => rfl
      | cons c cs =>
        dsimp only
        cases q.position w c.1 <;> simp only [T.along_move]
    | unknown => rfl
    | lacking name nodes => rfl

theorem owned_placed (T : Rigid) : q.owned (T.scene w) = q.owned w := by
  unfold owned
  simp only [Scene.springRef?_placed]

end Quantity

namespace Scene

variable (q : Quantity ℝ)

theorem lead_mirrors (a b : Point ℝ) (clamped : Bool) (captive spring : Id) :
    Mirrors T.scene id (q.lead a b clamped captive spring)
      (q.lead (T.move a) (T.move b) clamped captive spring) := by
  unfold Quantity.lead
  refine mirrors_bind_read fun w => ?_
  rw [springRef?_placed]
  split
  · exact mirrors_pure ()
  · next r hr =>
    refine mirrors_bind (mirrors_ofExcept (Quantity.position_placed q w T captive)) fun p => ?_
    rw [T.seat_move]
    have hr : r < w.springs.size := lt_size_of_id (of_springRef?_eq_some hr).2
    rw [spring_placed hr]
    refine mirrors_bind (mirrors_ofExcept (Spring.movePoint_placed _ _)) fun s => ?_
    refine mirrors_change fun v => ?_
    rw [← setSpring_placed, T.move_sub_move]
    rfl

theorem forEach_boundSpring_mirrors (lower upper : Option (Number ℝ)) (rs : List Ref) :
    Mirrors T.scene id (forEach (boundSpring · lower upper) rs)
      (forEach (boundSpring · lower upper) rs) :=
  mirrors_forEach (fun r => mirrors_change fun v =>
    changeSpring_placed T v r (f := (·.withBounds lower upper)) fun _ => rfl) rs

theorem impose_mirrors (lower upper : Option (Number ℝ)) (clamped : Bool) :
    Mirrors T.scene id (q.impose lower upper clamped) (q.impose lower upper clamped) := by
  unfold Quantity.impose
  refine mirrors_bind_read fun w => ?_
  refine mirrors_bind (mirrors_ofExcept (Quantity.ends_placed q w T)) fun p => ?_
  rw [Quantity.owned_placed]
  obtain ⟨a, b⟩ := p
  dsimp only [Rigid.pair]
  cases q.kind with
  | distance => exact forEach_boundSpring_mirrors lower upper _
  | angle i =>
    refine mirrors_bind (mirrors_ofExcept (Quantity.position_placed q w T i)) fun c => ?_
    simp only [Quantity.arms, T.distance_move]
    exact forEach_boundSpring_mirrors _ _ _
  | rail => exact mirrors_forEach (fun c : Id × Id => lead_mirrors q a b clamped c.1 c.2) _
  | unknown => exact mirrors_fail _
  | lacking name nodes => exact mirrors_fail _

end Scene

/-! ### Sketches -/

namespace Sketch

theorem onScene_mirrors {α : Type} {φ : α → α} {x y : Act ℝ (Scene ℝ) α}
    (h : Mirrors T.scene φ x y) : Mirrors T.sketch φ x.onScene y.onScene :=
  mirrors_onPart (fun _ => rfl) (fun _ _ => rfl) h

theorem quantityRef?_placed (T : Rigid) (w : Sketch ℝ) (k : Key) :
    (T.sketch w).quantityRef? k = w.quantityRef? k :=
  rfl

theorem needQuantity_mirrors (k : Key) :
    Mirrors T.sketch id (needQuantity (K := ℝ) k) (needQuantity k) := by
  unfold needQuantity
  refine mirrors_bind_read fun w => ?_
  rw [quantityRef?_placed]
  cases w.quantityRef? k with
  | some r => exact mirrors_pure r
  | none => exact mirrors_fail _

theorem deleteSpring_mirrors (k : Key) :
    Mirrors T.sketch id (Scene.deleteSpring (K := ℝ) k).onScene (Scene.deleteSpring k).onScene :=
  onScene_mirrors (Scene.deleteSpring_mirrors k)

theorem release_mirrors (rail node : Key) :
    Mirrors T.sketch id (release (K := ℝ) rail node) (release rail node) := by
  unfold release
  refine mirrors_bind (needQuantity_mirrors rail) fun r => mirrors_bind_read fun w => ?_
  have hquantity : (T.sketch w).quantity r = w.quantity r := rfl
  rw [id, hquantity]
  cases (w.quantity r).springHolding? node with
  | none => exact mirrors_pure ()
  | some s =>
    refine mirrors_bind (mirrors_change fun _ => rfl) fun _ => ?_
    exact mirrors_bind (deleteSpring_mirrors _) fun _ => mirrors_report _ _

theorem withdraw_mirrors (k : Key) :
    Mirrors T.sketch id (withdraw (K := ℝ) k) (withdraw k) := by
  unfold withdraw
  refine mirrors_bind (mirrors_report _ _) fun _ => mirrors_bind_read fun w => ?_
  rw [quantityRef?_placed]
  cases w.quantityRef? k with
  | none => exact mirrors_report _ _
  | some r =>
    refine mirrors_bind (mirrors_forEach (fun i => deleteSpring_mirrors _) _) fun _ => ?_
    refine mirrors_bind (mirrors_change fun _ => rfl) fun _ => ?_
    exact mirrors_bind (mirrors_change fun _ => rfl) fun _ => mirrors_report _ _

theorem prune_mirrors : Mirrors T.sketch id (prune (K := ℝ)) prune := by
  unfold prune
  refine mirrors_bind_read fun w => mirrors_forEach (fun r => ?_) _
  unfold pruneOne
  refine mirrors_bind_read fun w => ?_
  have hisNode : ∀ w : Sketch ℝ, (T.sketch w).isNode = w.isNode := fun w =>
    funext (Scene.isNode_placed T w.toScene)
  refine mirrors_ite (by rw [hisNode]; rfl) ?_ ?_
  · refine mirrors_forEach (fun c => mirrors_bind_read fun v => ?_) _
    exact mirrors_ite (by rw [hisNode]) (mirrors_pure ()) (release_mirrors _ _)
  · exact mirrors_bind (mirrors_report _ _) fun _ => withdraw_mirrors _

theorem valueOf_mirrors (b : Option (Limit ℝ)) :
    Mirrors T.sketch id (valueOf b) (valueOf b) := by
  unfold valueOf
  split
  · exact mirrors_pure _
  · exact mirrors_pure _
  · refine mirrors_bind_read fun w => ?_
    rw [quantityRef?_placed]
    cases w.quantityRef? _ with
    | none => exact mirrors_bind (mirrors_report _ _) fun _ => mirrors_pure _
    | some r =>
      have hread : ((T.sketch w).quantity r).read (T.sketch w).toScene =
          (w.quantity r).read w.toScene := Quantity.read_placed _ _ T
      dsimp only
      rw [hread]
      exact mirrors_bind (mirrors_ofExcept_id _) fun x => mirrors_pure _

theorem refreshOne_mirrors (r : Ref) :
    Mirrors T.sketch id (refreshOne (K := ℝ) r) (refreshOne r) := by
  unfold refreshOne
  refine mirrors_bind_read fun w => ?_
  refine mirrors_bind (valueOf_mirrors _) fun lower => ?_
  refine mirrors_bind (valueOf_mirrors _) fun upper => ?_
  exact onScene_mirrors (Scene.impose_mirrors _ _ _ _)

theorem refresh_mirrors (dt : Option ℝ) : Mirrors T.sketch id (refresh dt) (refresh dt) := by
  unfold refresh
  refine mirrors_bind prune_mirrors fun _ => mirrors_bind_read fun w => ?_
  refine mirrors_bind (mirrors_forEach refreshOne_mirrors _) fun _ => ?_
  cases dt with
  | none => exact mirrors_pure ()
  | some dt => exact onScene_mirrors (Scene.advance_mirrors dt)

end Sketch

namespace Bench

theorem frame_mirrors (dt : ℝ) : Mirrors T.bench id (frame dt) (frame dt) :=
  mirrors_onPart (fun _ => rfl) (fun _ _ => rfl) (Sketch.refresh_mirrors (some dt))

/-- A frame of a bench that was moved to another place fails where the frame of the bench fails, and
it leaves what that frame leaves, moved to the same place. All quantities then read the same on
both, and each spring has the same bounds, the same displacement and the same force, and is at the
end of its rail on both or on neither. -/
theorem frame_placed (w : Bench ℝ) (T : Rigid) (dt : ℝ) :
    let t := (frame dt w).state
    let u := (frame dt (T.bench w)).state
    (frame dt (T.bench w)).outcome = (frame dt w).outcome ∧ u = T.bench t ∧
      (∀ q : Quantity ℝ, q.read u.toScene = q.read t.toScene) ∧
      ∀ r, (u.spring r).lower = (t.spring r).lower ∧ (u.spring r).upper = (t.spring r).upper ∧
        (u.spring r).strain.displacement = (t.spring r).strain.displacement ∧
        (u.spring r).strain.force = (t.spring r).strain.force ∧
        (u.spring r).atRailEnd = (t.spring r).atRailEnd := by
  intro t u
  obtain ⟨houtcome, hstate⟩ := frame_mirrors (T := T) dt w
  have hu : u = T.bench t := hstate
  rw [hu]
  refine ⟨?_, rfl, fun q => q.read_placed _ T, fun r => ?_⟩
  · rw [houtcome]
    cases (frame dt w).outcome <;> rfl
  · have same : ∀ {α : Type} {f : Spring ℝ → α}, (∀ s, f (T.spring s) = f s) →
        f ((T.bench t).spring r) = f (t.spring r) := fun hf => Scene.field_placed hf t.toScene r
    exact ⟨same (f := (·.lower)) fun _ => rfl, same (f := (·.upper)) fun _ => rfl,
      same (f := (·.strain.displacement)) fun _ => rfl, same (f := (·.strain.force)) fun _ => rfl,
      same (f := (·.atRailEnd)) fun _ => rfl⟩

end Bench

end Linkage
