import Linkage.Proofs.Rail
import Linkage.Proofs.Triangle
import Linkage.Proofs.Bench

/-!
# Springs say what quantities declare

With exact numbers, a spring that its owner has just set is slack exactly if what the owner declares
holds where the nodes are (`Sketch.Settled.faithful`). An angle is kept by the chord between its
arms and a rail by the distance of a captive from its seat, so the arms and the rail need a length.

A rail sets where its springs run and leaves their bounds alone. Its springs are made without any
play, and what is said of them holds as long as nobody gives them some; nobody does in a run that
does not set their bounds (`Bench.Sparing`).
-/

namespace Linkage

open Act Scalar

/-- A bound that is absent excludes nothing. -/
def Between (lo hi : Option ℝ) (x : ℝ) : Prop := (∀ m ∈ lo, m ≤ x) ∧ ∀ m ∈ hi, x ≤ m

namespace Spring

variable (s : Spring ℝ) {l : ℝ}

/-- The bounds leave no length but zero. -/
def Taut : Prop := s.lower.map Number.val = some 0 ∧ s.upper.map Number.val = some 0

theorem Tight.taut {s : Spring ℝ} (h : s.Tight) : s.Taut := by
  unfold Taut
  rw [h.1, h.2]
  exact ⟨congrArg some zero_eq, congrArg some zero_eq⟩

theorem excess_eq_zero_iff : s.excess l = 0 ↔ ∀ m ∈ s.upper.map Number.val, l ≤ m := by
  unfold excess
  cases s.upper with
  | none => simp [zero_eq]
  | some m =>
    simp only [Option.map_some, Option.mem_some_iff, forall_eq']
    split
    · next h => exact iff_of_false (sub_pos.2 h).ne' h.not_ge
    · next h => exact iff_of_true zero_eq (not_lt.1 h)

/-- A spring is displaced exactly outside of its bounds, on whatever side of each other they are. -/
theorem displacementAt_eq_zero_iff :
    s.displacementAt l = 0 ↔ Between (s.lower.map Number.val) (s.upper.map Number.val) l := by
  unfold displacementAt Between
  cases s.lower with
  | none => simpa using s.excess_eq_zero_iff
  | some m =>
    simp only [Option.map_some, Option.mem_some_iff, forall_eq']
    split
    · next h => exact iff_of_false (sub_neg.2 h).ne fun hb => h.not_ge hb.1
    · next h => rw [s.excess_eq_zero_iff, and_iff_right (not_lt.1 h)]

theorem Taut.displacementAt_eq_zero_iff {s : Spring ℝ} (h : s.Taut) (hl : 0 ≤ l) :
    s.displacementAt l = 0 ↔ l = 0 := by
  rw [s.displacementAt_eq_zero_iff, h.1, h.2]
  simp only [Between, Option.mem_some_iff, forall_eq']
  exact ⟨fun hb => le_antisymm hb.2 hl, fun e => ⟨hl, e.le⟩⟩

end Spring

namespace Triangle

/-- An angle is within bounds exactly if the chord is within the chords for them. -/
theorem between_chord_iff {a b c : ℝ} (ha : tiny ≤ a) (hb : tiny ≤ b) (hlo : |a - b| ≤ c)
    (hhi : c ≤ a + b) (lo hi : Option (Number ℝ)) :
    Between ((Quantity.chord (a, b) lo).map Number.val)
        ((Quantity.chord (a, b) hi).map Number.val) c ↔
      Between (lo.map fun n => clamp 0 180 n.val) (hi.map fun n => clamp 0 180 n.val)
        (angle a b c) := by
  unfold Between Quantity.chord
  refine and_congr ?_ ?_
  · cases lo with
    | none => simp
    | some n => simpa [Number.val] using chord_le_iff ha hb hlo hhi n.val
  · cases hi with
    | none => simp
    | some n => simpa [Number.val] using le_chord_iff ha hb hlo hhi n.val

/-- The arms and the chord make a triangle. -/
theorem abs_arms_sub_le (a b c : Point ℝ) :
    |Point.distance c a - Point.distance c b| ≤ Point.distance a b ∧
      Point.distance a b ≤ Point.distance c a + Point.distance c b := by
  have hca := Point.distance_triangle c b a
  have hcb := Point.distance_triangle c a b
  have hab := Point.distance_triangle a c b
  rw [Point.distance_comm b a] at hca
  rw [Point.distance_comm a c] at hab
  refine ⟨abs_le.2 ⟨?_, ?_⟩, hab⟩ <;> linarith

end Triangle

namespace Quantity

variable {w : Scene ℝ} {q : Quantity ℝ} {i : Id} {lo hi : Option (Number ℝ)} {clamped : Bool}
  {s : Spring ℝ}

/-- What the quantity declares of its spring of the id `i` holds where the nodes are, between two
values. -/
def Holds (q : Quantity ℝ) (w : Scene ℝ) (lo hi : Option (Number ℝ)) (clamped : Bool) (i : Id) :
    Prop :=
  match q.kind with
  | .distance => ∃ x, q.read w = .ok x ∧ Between (lo.map Number.val) (hi.map Number.val) x
  | .angle _ => ∃ x, q.read w = .ok x ∧
      Between (lo.map fun n => clamp 0 180 n.val) (hi.map fun n => clamp 0 180 n.val) x
  | .rail => ∃ a b c p, q.ends w = .ok (a, b) ∧ (c, i) ∈ q.captives ∧ q.position w c = .ok p ∧
      Rail.Holds p a b clamped
  | .unknown | .lacking .. => False

/-- The arms of an angle, or a rail that holds something, have a length. -/
def Extended (q : Quantity ℝ) (w : Scene ℝ) : Prop :=
  match q.kind with
  | .angle i => ∀ a b c, q.ends w = .ok (a, b) → q.position w i = .ok c →
      tiny ≤ (arms a b c).1 ∧ tiny ≤ (arms a b c).2
  | .rail => q.captives ≠ [] → ∀ a b, q.ends w = .ok (a, b) → tiny ≤ Point.distance a b
  | _ => True

/-- The spring runs somewhere, and is slack there exactly if what the quantity declares holds. -/
def Faithful (q : Quantity ℝ) (w : Scene ℝ) (lo hi : Option (Number ℝ)) (clamped : Bool) (i : Id)
    (s : Spring ℝ) : Prop :=
  ∃ a b, w.ends s = .ok (a, b) ∧
    (s.displacementAt (Point.distance a b) = 0 ↔ q.Holds w lo hi clamped i)

section

variable {a b : Point ℝ} (ha : q.position w q.a = .ok a) (hb : q.position w q.b = .ok b)
  (hm : q.Made i s) (hk : q.Keeps w lo hi clamped i s s) (hext : q.Extended w)

include ha hb hm hk

theorem faithful_distance (hkind : q.kind = .distance) : q.Faithful w lo hi clamped i s := by
  rw [Made, hkind] at hm
  rw [Keeps, hkind] at hk
  have hread := read_distance ha hb hkind
  have hlo : s.lower = lo := congrArg Spring.lower hk
  have hhi : s.upper = hi := congrArg Spring.upper hk
  refine ⟨a, b, ends_pair hm.2 ha hb, ?_⟩
  rw [s.displacementAt_eq_zero_iff, hlo, hhi, Holds, hkind]
  simp [hread]

include hext

theorem faithful_angle {j : Id} (hp : q.Proper) (hkind : q.kind = .angle j) :
    q.Faithful w lo hi clamped i s := by
  rw [Made, hkind] at hm
  rw [Keeps, hkind] at hk
  rw [Extended, hkind] at hext
  obtain ⟨a', b', c, ha', hb', hc, hs⟩ := hk
  cases ha.symm.trans ha'
  cases hb.symm.trans hb'
  have hread := read_angle ha hb hkind hc
  have hlo : s.lower = chord (arms a b c) lo := congrArg Spring.lower hs
  have hhi : s.upper = chord (arms a b c) hi := congrArg Spring.upper hs
  obtain ⟨hl, hr⟩ := hext a b c (hp.ends_eq ha hb) hc
  obtain ⟨hsub, hadd⟩ := Triangle.abs_arms_sub_le a b c
  refine ⟨a, b, ends_pair hm.2 ha hb, ?_⟩
  rw [s.displacementAt_eq_zero_iff, hlo, hhi, Holds, hkind]
  simpa [hread] using Triangle.between_chord_iff hl hr hsub hadd lo hi

theorem faithful_rail (hp : q.Proper) (hkind : q.kind = .rail)
    (hcaptives : (q.captives.map Prod.snd).Nodup) (ht : s.Taut) :
    q.Faithful w lo hi clamped i s := by
  rw [made_rail hkind] at hm
  rw [Keeps, hkind] at hk
  rw [Extended, hkind] at hext
  obtain ⟨-, c, hc, he⟩ := hm
  obtain ⟨a', b', c', p, ha', hb', hc', hpos, hs⟩ := hk
  cases ha.symm.trans ha'
  cases hb.symm.trans hb'
  cases List.inj_on_of_nodup_map hcaptives hc hc' rfl
  have hends := hp.ends_eq ha hb
  have hlong := hext (List.ne_nil_of_mem hc) a b hends
  have hseat : s.a = .point (Rail.seat p a b clamped).1 := congrArg Spring.a hs
  refine ⟨_, p, ends_point he hseat hpos, ?_⟩
  rw [ht.displacementAt_eq_zero_iff (Point.distance_nonneg _ _),
    Rail.distance_seat_eq_zero_iff hlong, Holds, hkind]
  constructor
  · intro h
    exact ⟨a, b, c, p, hends, hc, hpos, h⟩
  · rintro ⟨a', b', c', p', hends', hc', hpos', h⟩
    cases hends.symm.trans hends'
    cases List.inj_on_of_nodup_map hcaptives hc hc' rfl
    cases hpos.symm.trans hpos'
    exact h

end

end Quantity

namespace Sketch

variable {w : Sketch ℝ} {r s : Ref} {i : Id}

/-- What a declared quantity says of its spring of the id `i` holds on the sketch as it stands. -/
def Holds (w : Sketch ℝ) (r : Ref) (i : Id) : Prop :=
  ∃ lo hi, w.worth (w.quantity r).lower = .ok lo ∧ w.worth (w.quantity r).upper = .ok hi ∧
    (w.quantity r).Holds w.toScene lo hi w.clamped i

/-- Where nothing is missing and all springs are set, they say what the quantities declare. -/
theorem Settled.faithful (hs : w.Settled) (h : w.Sound) (ht : w.Tidy) (hi : w.Owns r i)
    (hspring : w.springRef? (some i) = some s) (hext : (w.quantity r).Extended w.toScene)
    (htaut : (w.quantity r).kind = .rail → (w.spring s).Taut) :
    ∃ a b, w.ends (w.spring s) = .ok (a, b) ∧
      ((w.spring s).displacementAt (Point.distance a b) = 0 ↔ w.Holds r i) := by
  obtain ⟨lo, hi₁, hlo, hhi, hk⟩ := hs i s hspring r hi
  have hp := h.proper r hi.1
  have hm := h.made r i hi s hspring
  have hn := (ht r hi.1).1
  obtain ⟨a, ha⟩ := Quantity.exists_position (w.quantity r) (hn _ hp.mem_nodeIds.1)
  obtain ⟨b, hb⟩ := Quantity.exists_position (w.quantity r) (hn _ hp.mem_nodeIds.2)
  have hfaithful : (w.quantity r).Faithful w.toScene lo hi₁ w.clamped i (w.spring s) := by
    cases hkind : (w.quantity r).kind with
    | distance => exact Quantity.faithful_distance ha hb hm hk hkind
    | angle j => exact Quantity.faithful_angle ha hb hm hk hext hp hkind
    | rail =>
      exact Quantity.faithful_rail ha hb hm hk hext hp hkind (h.captives_nodup hi.1) (htaut hkind)
    | unknown => simp [Quantity.Proper, hkind] at hp
    | lacking name nodes => simp [Quantity.Proper, hkind] at hp
  obtain ⟨a, b, hends, hiff⟩ := hfaithful
  refine ⟨a, b, hends, hiff.trans ⟨fun hh => ⟨lo, hi₁, hlo, hhi, hh⟩, ?_⟩⟩
  rintro ⟨lo', hi', hlo', hhi', hh⟩
  cases hlo.symm.trans hlo'
  cases hhi.symm.trans hhi'
  exact hh

end Sketch

namespace Bench

/-- The bench after a refresh without a frame. -/
def refreshed {K : Type} [Scalar K] (w : Bench K) : Bench K :=
  ((Sketch.refresh none).onSketch w).state

/-- After every run and a refresh without a frame, an owned spring runs between two points and is
slack there exactly if what its owner declares of it holds; the spring of a rail, if it is still
without play, as it is after every run that did not set its bounds. -/
theorem faithful_after_run (c : Config ℝ) (springs : Arena (Spring ℝ))
    (quantities : Arena (Quantity ℝ)) (ops : List (Op ℝ)) (r : Ref) (i : Id) (s : Ref) :
    let t := refreshed (after ops (empty c springs quantities))
    t.Owns r i → t.springRef? (some i) = some s →
      ((t.quantity r).Extended t.toScene → ((t.quantity r).kind = .rail → (t.spring s).Taut) →
        ∃ a b, t.ends (t.spring s) = .ok (a, b) ∧
          ((t.spring s).displacementAt (Point.distance a b) = 0 ↔ t.Holds r i)) ∧
      (Sparing ops (empty c springs quantities) → (t.quantity r).kind = .rail →
        (t.spring s).Taut) := by
  intro t hi hspring
  have hempty : (empty c springs quantities).toSketch.Sound :=
    Sketch.sound_empty c springs quantities
  have h : (after ops (empty c springs quantities)).toSketch.Sound :=
    sound_after c springs quantities ops
  obtain ⟨-, hsound, ⟨htidy, hsettled⟩, -⟩ := Sketch.refresh_none h
  refine ⟨fun hext htaut => hsettled.faithful hsound htidy hi hspring hext htaut,
    fun hops hkind => Spring.Tight.taut ?_⟩
  have hbefore : (after ops (empty c springs quantities)).Tight :=
    after_tight hempty (Sketch.tight_empty c springs quantities) ops hops
  have hafter : t.Tight := hbefore.shrunk h (Sketch.refresh_shrunk h none)
  have hmade := (Quantity.made_rail hkind).1 (hsound.made r i hi s hspring)
  exact hafter r i s hi hspring hmade.1

/-- A rail from `(0, 0)` to `(10, 0)` holds a node at `(5, 5)`. -/
noncomputable def asideRun : List (Op ℝ) :=
  let node (x y : ℝ) : Op ℝ := .sketch (.scene (.addNode (.ofPoint ⟨x, y⟩)))
  [node 0 0, node 10 0, node 5 5, .sketch (.declareRail (some 0) (some 1) [some 2])]

theorem tiny_le_ten : tiny ≤ Point.distance (⟨0, 0⟩ : Point ℝ) ⟨10, 0⟩ := by
  rw [Point.distance_eq]
  refine Real.le_sqrt_of_sq_le ?_
  unfold tiny
  norm_num

theorem faithful_aside :
    let t := refreshed (after asideRun (empty default {} {}))
    t.Owns 0 0 ∧ t.springRef? (some 0) = some 0 ∧ (t.quantity 0).Extended t.toScene ∧
      Sparing asideRun (empty default {} {}) ∧ (t.quantity 0).kind = .rail ∧ (t.spring 0).Taut ∧
      ∃ a b, t.ends (t.spring 0) = .ok (a, b) ∧
        ((t.spring 0).displacementAt (Point.distance a b) = 0 ↔ t.Holds 0 0) := by
  intro t
  have hi : t.Owns 0 0 := ⟨List.mem_singleton_self 0, List.mem_singleton_self 0⟩
  have hspring : t.springRef? (some 0) = some 0 := rfl
  have hkind : (t.quantity 0).kind = .rail := rfl
  have hext : (t.quantity 0).Extended t.toScene := by
    rintro - a b hends
    cases hends
    exact tiny_le_ten
  have hops : Sparing asideRun (empty default {} {}) := by
    rintro pre _ post e s lo hi rfl
    have hmem : Op.sketch (.scene (.boundSpring s lo hi)) ∈ asideRun := by simp [e]
    simp [asideRun] at hmem
  obtain ⟨hfaithful, htaut⟩ := faithful_after_run default {} {} asideRun 0 0 0 hi hspring
  have ht := htaut hops hkind
  exact ⟨hi, hspring, hext, hops, hkind, ht, hfaithful hext fun _ => ht⟩

/-- Somebody gives the spring of the rail all play: then it is slack, and the node is not on the
rail. -/
theorem not_faithful_loosened :
    let t := refreshed
      (after (asideRun ++ [.sketch (.scene (.boundSpring 0 none none))]) (empty default {} {}))
    (∀ r i, t.Owns r i → (t.springRef? (some i)).isSome) ∧
      (∀ r ∈ t.declared, (t.quantity r).Extended t.toScene) ∧
      t.Owns 0 0 ∧ t.springRef? (some 0) = some 0 ∧
      ∃ a b, t.ends (t.spring 0) = .ok (a, b) ∧
        (t.spring 0).displacementAt (Point.distance a b) = 0 ∧ ¬ t.Holds 0 0 := by
  intro t
  have hdeclared : t.declared = [0] := rfl
  have hids : (t.quantity 0).springIds = [0] := rfl
  refine ⟨fun r i hi => ?_, fun r hr => ?_, ?_, rfl, _, _, rfl, zero_eq, ?_⟩
  · obtain ⟨hr, hi⟩ := hi
    rw [hdeclared, List.mem_singleton] at hr
    rw [hr, hids, List.mem_singleton] at hi
    rw [hi]
    rfl
  · rw [hdeclared, List.mem_singleton] at hr
    rw [hr]
    rintro - a b hends
    cases hends
    exact tiny_le_ten
  · exact ⟨List.mem_singleton_self 0, List.mem_singleton_self 0⟩
  · rintro ⟨_, _, -, -, a, b, c, p, hends, hc, hp, k, hk, -⟩
    have hcaptives : (t.quantity 0).captives = [(2, 0)] := rfl
    rw [hcaptives, List.mem_singleton] at hc
    cases hc
    cases hends
    cases hp
    have hy : (5 : ℝ) = 0 + k * (0 - 0) := congrArg Point.y hk
    norm_num at hy

end Bench

end Linkage
