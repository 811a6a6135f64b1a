import Linkage.Proofs.Scene.Run
import Linkage.Proofs.Sketch.Refresh
import Mathlib.Data.List.Induction

/-!
# Runs of a sketch

A run mixes operations on the sketch with operations on its scene, behind the back of the quantities
over it. `step_cases` is the one step, `after_onward` carries soundness through every run. What
rails own stays without play under every operation that does not set its bounds (`step_tight`).
-/

namespace Linkage.Sketch

open Act

variable {K : Type} [Scalar K] {w t : Sketch K} {r : Ref} {i : Id}

inductive Op (K : Type) where
  | scene (o : Scene.Op K)
  | declareDistance (a b : Key) (lower upper : BoundArg Ref K)
  | declareAngle (a b pivot : Key) (lower upper : BoundArg Ref K)
  | declareRail (a b : Key) (captives : List Key)
  | hold (rail node : Key)
  | release (rail node : Key)
  | setLower (k : Key) (arg : BoundArg Ref K)
  | setUpper (k : Key) (arg : BoundArg Ref K)
  | readingOf (k : Key)
  | valueNow (b : Option (Limit K))
  | withdraw (k : Key)
  | withdrawNode (k : Key)
  | refresh (dt : Option K)
  /-- A quantity object that is not declared. -/
  | makeQuantity (q : Quantity K)

namespace Op

def act : Op K → Act K (Sketch K) Unit
  | scene o => o.act.onScene
  | declareDistance a b lower upper => do let _ ← Sketch.declareDistance a b lower upper
  | declareAngle a b pivot lower upper => do let _ ← Sketch.declareAngle a b pivot lower upper
  | declareRail a b captives => do let _ ← Sketch.declareRail a b captives
  | hold rail node => Sketch.hold rail node
  | release rail node => Sketch.release rail node
  | setLower k arg => Sketch.setLower k arg
  | setUpper k arg => Sketch.setUpper k arg
  | readingOf k => do let _ ← Sketch.readingOf k
  | valueNow b => do let _ ← Sketch.valueNow b
  | withdraw k => Sketch.withdraw k
  | withdrawNode k => Sketch.withdrawNode k
  | refresh dt => Sketch.refresh dt
  | makeQuantity q => change (·.makeQuantity q)

/-- The sketch that is left when the operation has ended, be it by a failure. -/
def step (o : Op K) (w : Sketch K) : Sketch K := (o.act w).state

end Op

def after (ops : List (Op K)) (w : Sketch K) : Sketch K := ops.foldl (fun w o => o.step w) w

theorem after_concat (ops : List (Op K)) (o : Op K) (w : Sketch K) :
    after (ops ++ [o]) w = o.step (after ops w) :=
  List.foldl_concat ..

/-! ### Soundness -/

/-- An operation on the scene goes behind the back of the quantities. Any other makes what is owned
newly, or it makes nothing be owned newly. -/
theorem Op.step_cases (h : w.Sound) (o : Op K) :
    (∃ o', o = .scene o') ∨ Grown w (o.step w) ∨ Shrunk w (o.step w) := by
  cases o with
  | scene o => exact .inl ⟨o, rfl⟩
  | declareDistance a b lower upper =>
    exact .inr (.inl (wp_bind_keep (declareDistance_grown h a b lower upper) fun _ _ ht => ht))
  | declareAngle a b pivot lower upper =>
    exact .inr (.inl (wp_bind_keep (declareAngle_grown h a b pivot lower upper) fun _ _ ht => ht))
  | declareRail a b captives =>
    exact .inr (.inl (wp_bind_keep (declareRail_grown h a b captives) fun _ _ ht => ht))
  | hold rail node => exact .inr (.inl (hold_grown h rail node))
  | release rail node => exact .inr (.inr (release_shrunk h rail node))
  | setLower k arg => exact .inr (.inl (setLower_grown h k arg))
  | setUpper k arg => exact .inr (.inl (setUpper_grown h k arg))
  | readingOf k => exact .inr (.inr (wp_bind_keep (readingOf_shrunk h k) fun _ _ ht => ht))
  | valueNow b => exact .inr (.inr (wp_bind_keep (valueNow_shrunk h b) fun _ _ ht => ht))
  | withdraw k => exact .inr (.inr (withdraw_shrunk h k))
  | withdrawNode k => exact .inr (.inr (withdrawNode_shrunk h k))
  | refresh dt => exact .inr (.inr (refresh_shrunk h dt))
  | makeQuantity q => exact .inr (.inl (grown_makeQuantity h q))

theorem Op.step_onward (h : w.Sound) (o : Op K) : Onward w (o.step w) := by
  rcases o.step_cases h with ⟨o, rfl⟩ | ho | ho
  · exact onward_withScene h (o.step_onward h.scene)
  · exact ho.toOnward
  · exact ho.toOnward

theorem after_onward (h : w.Sound) (ops : List (Op K)) : Onward w (after ops w) := by
  induction ops generalizing w with
  | nil => exact .refl h
  | cons o ops ih =>
    have ho := o.step_onward h
    exact ho.trans (ih ho.sound)

/-! ### Where an owned spring comes from -/

/-- In this step the quantity comes to own the id, and the id comes to name a spring that is made
in it. -/
def Born (o : Op K) (w : Sketch K) (r : Ref) (i : Id) (s : Ref) : Prop :=
  ¬ w.Owns r i ∧ (o.step w).Owns r i ∧ w.springs.size ≤ s ∧
    (o.step w).springRef? (some i) = some s

theorem Op.born (h : w.Sound) (o : Op K) (hold : ¬ w.Owns r i) (hnew : (o.step w).Owns r i) :
    ∃ s, Born o w r i s := by
  rcases o.step_cases h with ⟨o, rfl⟩ | ho | ho
  · exact absurd hnew hold
  · rcases ho.owns r i hnew with hi | ⟨s, hs, hi, -⟩
    · exact absurd hi hold
    · exact ⟨s, hold, hnew, hs, hi⟩
  · exact absurd (ho.owns r i hnew) hold

/-- What is owned after a run was born in one of its steps, and its id has named nothing else
since. -/
theorem exists_born (ops : List (Op K)) (h : w.Sound) (hw : ¬ w.Owns r i)
    (ht : (after ops w).Owns r i) :
    ∃ pre o post s, ops = pre ++ o :: post ∧ Born o (after pre w) r i s ∧
      ∀ s', (after ops w).springRef? (some i) = some s' → s' = s := by
  induction ops using List.reverseRecOn with
  | nil => exact absurd ht hw
  | append_singleton ops o ih =>
    have hu := (after_onward h ops).sound
    rw [after_concat] at ht ⊢
    by_cases hi : (after ops w).Owns r i
    · obtain ⟨pre, o', post, s, hops, hborn, hs⟩ := ih hi
      refine ⟨pre, o', post ++ [o], s, by simp [hops], hborn, fun s' hs' => hs s' ?_⟩
      exact (o.step_onward hu).scene.springRef? hu.scene (hu.owned_lt r i hi) hs'
    · obtain ⟨s, hborn⟩ := o.born hu hi ht
      refine ⟨ops, o, [], s, rfl, hborn, fun s' hs' => ?_⟩
      exact Option.some.inj (hs'.symm.trans hborn.2.2.2)

/-- After every run that starts from an empty sketch the quantities own what their kinds say, apart
from each other; their ids ascend, their references are declared, and an owned id names no spring or
the very one that was made when it came to be owned. -/
theorem owners_after_run (c : Config K) (springs : Arena (Spring K))
    (quantities : Arena (Quantity K)) (ops : List (Op K)) :
    let w : Sketch K := { springs := springs, graph := { config := c }, quantities := quantities }
    (after ops w).Sound ∧ (after ops w).Ordered ∧
      ∀ r i, (after ops w).Owns r i →
        ∃ pre o post s, ops = pre ++ o :: post ∧ Born o (after pre w) r i s ∧
          ∀ s', (after ops w).springRef? (some i) = some s' → s' = s := by
  intro w
  have h : w.Sound := sound_empty c springs quantities
  have ht := after_onward h ops
  refine ⟨ht.sound, ht.ordered (ordered_empty c springs quantities), fun r i hi => ?_⟩
  exact exists_born ops h (fun hw => List.not_mem_nil hw.1) hi

/-! ### The play of rails -/

/-- The springs that rails own are as rails make them. -/
def Tight (w : Sketch K) : Prop :=
  ∀ r i s, w.Owns r i → w.springRef? (some i) = some s → (w.spring s).kind = .rail →
    (w.spring s).Tight

theorem tight_empty (c : Config K) (springs : Arena (Spring K)) (quantities : Arena (Quantity K)) :
    Tight { springs := springs, graph := { config := c }, quantities := quantities } :=
  fun _ _ _ hi => absurd hi.1 List.not_mem_nil

/-- The operation does not set the bounds of a spring that a rail owns. -/
def Op.Sparing (o : Op K) (w : Sketch K) : Prop :=
  ∀ s lo hi, o = .scene (.boundSpring s lo hi) → ∀ r i, w.Owns r i →
    w.springRef? (some i) = some s → (w.quantity r).kind ≠ .rail

/-- A rail's spring that was owned before was a rail's before. -/
theorem Onward.rail_before {s : Ref} (ho : Onward w t) (h : w.Sound) (hi : w.Owns r i)
    (hs : t.springRef? (some i) = some s) (hk : (t.spring s).kind = .rail) :
    w.springRef? (some i) = some s ∧ (w.spring s).kind = .rail := by
  have hs' := ho.scene.springRef? h.scene (h.owned_lt r i hi) hs
  exact ⟨hs', ho.scene.kind_eq h.scene hs' hs ▸ hk⟩

/-- Only a rail owns springs of its kind. -/
theorem Sound.rail_of_spring {s : Ref} (h : w.Sound) (hi : w.Owns r i)
    (hs : w.springRef? (some i) = some s) (hk : (w.spring s).kind = .rail) :
    (w.quantity r).kind = .rail := by
  have hm := h.made r i hi s hs
  unfold Quantity.Made at hm
  split at hm
  · cases hm.1.symm.trans hk
  · cases hm.1.symm.trans hk
  · assumption
  · exact hm.elim
  · exact hm.elim

theorem Tight.shrunk (ht : w.Tight) (h : w.Sound) (hs : Shrunk w t) : t.Tight := by
  intro r i s hi his hk
  obtain ⟨his', hk'⟩ := hs.toOnward.rail_before h (hs.owns r i hi) his hk
  exact hs.spared.tight hk' (ht r i s (hs.owns r i hi) his' hk')

theorem Tight.grown (ht : w.Tight) (h : w.Sound) (hg : Grown w t) : t.Tight := by
  intro r i s hi his hk
  rcases hg.owns r i hi with hi' | ⟨s', -, his', htight⟩
  · obtain ⟨hiw, hk'⟩ := hg.toOnward.rail_before h hi' his hk
    exact hg.spared.tight hk' (ht r i s hi' hiw hk')
  · cases his.symm.trans his'
    exact htight hk

theorem Op.step_tight (h : w.Sound) (ht : w.Tight) {o : Op K} (ho : o.Sparing w) :
    (o.step w).Tight := by
  rcases o.step_cases h with ⟨o, rfl⟩ | hg | hs
  · intro r i s hi his hk
    have hw : w.Owns r i := hi
    have honward : Onward w (step (.scene o) w) := step_onward h (.scene o)
    obtain ⟨his', hk'⟩ := honward.rail_before h hw his hk
    have hlisted := (Scene.of_springRef?_eq_some his').1
    have hbounds := o.step_bounds h.scene hlisted hk' fun lo hi e =>
      ho s lo hi (congrArg Op.scene e) r i hw his' (h.rail_of_spring hw his' hk')
    have htight := ht r i s hw his' hk'
    exact ⟨hbounds.1.trans htight.1, hbounds.2.trans htight.2⟩
  · exact ht.grown h hg
  · exact ht.shrunk h hs

end Linkage.Sketch
