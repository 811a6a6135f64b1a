import Linkage.Proofs.Scene.Abreast
import Linkage.Proofs.Sketch.Run

/-!
# Sketches whose springs go by other names

A quantity keeps the ids of its springs. `Sketch.Twin f P L w t` says that `t` is the sketch `w`
where springs go by the names that `f` gives them, in the scene and in the declared quantities; what
other quantity objects keep does not matter, but for those of `L`. Every operation on both leaves
such sketches again.
-/

namespace Linkage

open Act

variable {K : Type} {f : Naming} {P L L' : Ref → Prop}

namespace Arena

theorem get_modify {α : Type} [Inhabited α] (a : Arena α) (r : Ref) (g : α → α) (s : Ref) :
    (a.modify r g).get s = if s = r ∧ s < a.size then g (a.get s) else a.get s := by
  split
  · next h => rw [← h.1, get_modify_self g h.2]
  · next h =>
    by_cases e : s = r
    · have hs : a.size ≤ s := Nat.not_lt.1 fun hlt => h ⟨e, hlt⟩
      rw [get_of_size_le hs, get_of_size_le (by rwa [size_modify])]
    · exact get_modify_ne g e

end Arena

/-! ### Quantities -/

namespace Quantity

def under (f : Naming) (q : Quantity K) : Quantity K :=
  { q with
    springIds := q.springIds.map f.id
    captives := q.captives.map fun c => (c.1, f.id c.2) }

theorem fst_captives_under (q : Quantity K) :
    (q.under f).captives.map Prod.fst = q.captives.map Prod.fst := by
  simp [under]

theorem springHolding?_under (q : Quantity K) (k : Key) :
    (q.under f).springHolding? k = (q.springHolding? k).map f.id := by
  unfold springHolding? under
  rw [List.find?_map, Option.map_map, Option.map_map]
  rfl

theorem hold_under (q : Quantity K) (n s : Id) :
    (q.under f).hold n (f.id s) = (q.hold n s).under f := by
  unfold hold under putCaptive
  simp only [List.any_map, List.map_append, List.map_cons, List.map_nil]
  congr 1
  show (if q.captives.any fun c => c.1 == n then _ else _) = _
  split
  · rw [List.map_map, List.map_map]
    refine List.map_congr_left fun c _ => ?_
    simp only [Function.comp_apply]
    split <;> rfl
  · rw [List.map_append]
    rfl

theorem release_under (q : Quantity K) (k : Key) (s : Id) :
    (q.under f).release k (f.id s) = (q.release k s).under f := by
  unfold release under
  simp only [List.filter_map, List.map_erase f.id_inj]
  rfl

variable [Scalar K] {w t : Scene K}

theorem position_twin (h : Scene.Twin f P w t) (q : Quantity K) (i : Id) :
    (q.under f).position t i = q.position w i :=
  position_congr h.positions q i

theorem ends_twin (h : Scene.Twin f P w t) (q : Quantity K) : (q.under f).ends t = q.ends w :=
  ends_congr h.positions q

theorem read_twin (h : Scene.Twin f P w t) (q : Quantity K) : (q.under f).read t = q.read w := by
  refine Eq.trans ?_ (read_congr h.positions q)
  obtain ⟨id, kind, a, b, others, lower, upper, springIds, captives⟩ := q
  cases captives <;> rfl

theorem owned_twin (h : Scene.Twin f P w t) (q : Quantity K) :
    (q.under f).owned t = (q.owned w).map f.ref := by
  unfold owned
  show (q.springIds.map f.id).filterMap _ = _
  rw [List.filterMap_map, List.map_filterMap]
  exact List.filterMap_congr fun i _ => h.springRef? (some i)

/-- The springs of a rail are led to the same places. -/
theorem lead_twin (h : Scene.Twin f P w t) (q : Quantity K) (a b : Point K) (clamped : Bool)
    (captive s : Id) :
    Keep (Scene.Twin f P) (q.lead a b clamped captive s)
      ((q.under f).lead a b clamped captive (f.id s)) w t := by
  unfold lead
  rw [Keep, abreast_bind_read, show some (f.id s) = f.key (some s) from rfl, h.springRef?]
  cases w.springRef? (some s) with
  | none => exact h
  | some r =>
    dsimp only [Option.map_some]
    rw [position_twin h]
    refine abreast_bind_ofExcept h _ fun p _ => ?_
    exact h.update (g := (·.movePoint (.ok _))) (Spring.blind_movePoint _) (fun _ _ => rfl) r

theorem impose_twin (h : Scene.Twin f P w t) (q : Quantity K) (lower upper : Option (Number K))
    (clamped : Bool) :
    Keep (Scene.Twin f P) (q.impose lower upper clamped) ((q.under f).impose lower upper clamped) w
      t := by
  have hbounds : ∀ lower upper, Keep (Scene.Twin f P)
      (forEach (Scene.boundSpring · lower upper) (q.owned w))
      (forEach (Scene.boundSpring · lower upper) ((q.under f).owned t)) w t := fun lower upper =>
    keep_forEach h (owned_twin h q) fun r _ _ _ h => h.boundSpring r lower upper
  unfold impose
  rw [Keep, abreast_bind_read, ends_twin h]
  refine abreast_bind_ofExcept h _ fun p _ => ?_
  have hkind : (q.under f).kind = q.kind := rfl
  rw [hkind]
  cases q.kind with
  | distance => exact hbounds lower upper
  | angle i =>
    dsimp only
    rw [position_twin h]
    exact abreast_bind_ofExcept h _ fun c _ => hbounds _ _
  | rail =>
    exact keep_forEach h rfl fun c _ _ _ h => lead_twin h q p.1 p.2 clamped c.1 c.2
  | unknown => exact h
  | lacking name nodes => exact h

end Quantity

/-! ### Sketches -/

namespace Sketch

variable [Scalar K] {w t : Sketch K} {r : Ref}

structure Twin (f : Naming) (P L : Ref → Prop) (w t : Sketch K) : Prop where
  scene : Scene.Twin f P w.toScene t.toScene
  declared : t.declared = w.declared
  nextQuantity : t.nextQuantity = w.nextQuantity
  size : t.quantities.size = w.quantities.size
  lt : ∀ r, r ∈ w.declared ∨ L r → r < w.quantities.size
  alike : ∀ r, (t.quantity r).disowned = (w.quantity r).disowned
  owned : ∀ r, r ∈ w.declared ∨ L r → t.quantity r = (w.quantity r).under f

namespace Twin

/-- Quantities that are declared now may be remembered. -/
theorem know (h : Twin f P L w t) {l : List Ref} (hl : ∀ r ∈ l, r ∈ w.declared) :
    Twin f P (fun r => r ∈ l ∨ L r) w t :=
  { h with
    lt := fun r hr => h.lt r (hr.elim .inl (Or.imp_left (hl r)))
    owned := fun r hr => h.owned r (hr.elim .inl (Or.imp_left (hl r))) }

theorem forget (h : Twin f P L' w t) (hL : ∀ r, L r → L' r) : Twin f P L w t :=
  { h with
    lt := fun r hr => h.lt r (hr.imp_right (hL r))
    owned := fun r hr => h.owned r (hr.imp_right (hL r)) }

/-- A loop over quantities that are declared when it begins; on its way they may be withdrawn. -/
theorem forEach_declared (h : Twin f P L w t) {g : Ref → Act K (Sketch K) Unit}
    (step : ∀ L r w t, Twin f P L w t → r ∈ w.declared ∨ L r → Keep (Twin f P L) (g r) (g r) w t) :
    Keep (Twin f P L) (forEach g w.declared) (forEach g t.declared) w t := by
  rw [h.declared]
  have hloop := keep_forEach_same (h.know fun r hr => hr) fun r hr _ _ h =>
    step _ r _ _ h (.inr (.inl hr))
  exact hloop.mono (fun _ _ h => h.forget fun _ => .inr) fun _ _ _ _ h => h.forget fun _ => .inr

/-! ### Look-ups -/

theorem id (h : Twin f P L w t) (r : Ref) : (t.quantity r).id = (w.quantity r).id :=
  (congrArg Quantity.id (h.alike r) :)

theorem kind (h : Twin f P L w t) (r : Ref) : (t.quantity r).kind = (w.quantity r).kind :=
  (congrArg Quantity.kind (h.alike r) :)

theorem quantityRef? (h : Twin f P L w t) (k : Key) : t.quantityRef? k = w.quantityRef? k := by
  unfold Sketch.quantityRef?
  simp only [h.declared, h.id]

theorem clamped (h : Twin f P L w t) : t.clamped = w.clamped := by
  unfold Sketch.clamped
  rw [h.scene.config]

/-! ### Changes -/

theorem withScene (h : Twin f P L w t) {v v' : Scene K} (hv : Scene.Twin f P v v') :
    Twin f P L (w.withScene v) (t.withScene v') :=
  { h with scene := hv }

theorem passId (h : Twin f P L w t) : Twin f P L w.passId t.passId :=
  { h with nextQuantity := congrArg (· + 1) h.nextQuantity }

theorem changeQuantity (h : Twin f P L w t) (r : Ref) {g g' : Quantity K → Quantity K}
    (hg : ∀ q q', q'.disowned = q.disowned → (g' q').disowned = (g q).disowned)
    (hu : ∀ q, g' (q.under f) = (g q).under f) :
    Twin f P L (w.changeQuantity r g) (t.changeQuantity r g') := by
  have hget : ∀ s, ((w.changeQuantity r g).quantity s = w.quantity s ∧
      (t.changeQuantity r g').quantity s = t.quantity s) ∨
      ((w.changeQuantity r g).quantity s = g (w.quantity s) ∧
        (t.changeQuantity r g').quantity s = g' (t.quantity s)) := fun s => by
    simp only [Sketch.changeQuantity, Sketch.quantity, Arena.get_modify, h.size]
    by_cases hs : s = r ∧ s < w.quantities.size
    · simp only [if_pos hs, and_self, or_true]
    · simp only [if_neg hs, and_self, true_or]
  refine ⟨h.scene, h.declared, h.nextQuantity, ?_, fun s hs => ?_, fun s => ?_, fun s hs => ?_⟩
  · show (t.quantities.modify r g').size = (w.quantities.modify r g).size
    rw [Arena.size_modify, Arena.size_modify, h.size]
  · show s < (w.quantities.modify r g).size
    rw [Arena.size_modify]
    exact h.lt s hs
  · rcases hget s with ⟨e, e'⟩ | ⟨e, e'⟩ <;> rw [e, e']
    · exact h.alike s
    · exact hg _ _ (h.alike s)
  · rcases hget s with ⟨e, e'⟩ | ⟨e, e'⟩ <;> rw [e, e', h.owned s hs]
    exact hu _

theorem makeQuantity (h : Twin f P L w t) {q q' : Quantity K} (hq : q'.disowned = q.disowned) :
    Twin f P L (w.makeQuantity q) (t.makeQuantity q') := by
  have hold : ∀ s, s < w.quantities.size → (w.makeQuantity q).quantity s = w.quantity s ∧
      (t.makeQuantity q').quantity s = t.quantity s := fun s hs =>
    ⟨Arena.get_alloc_of_lt hs, Arena.get_alloc_of_lt (h.size ▸ hs)⟩
  have hsize : ∀ (v : Sketch K) q, (v.makeQuantity q).quantities.size = v.quantities.size + 1 :=
    fun v q => Arena.size_alloc
  refine ⟨h.scene, h.declared, h.nextQuantity, ?_, fun s hs => ?_, fun s => ?_, fun s hs => ?_⟩
  · rw [hsize, hsize, h.size]
  · rw [hsize]
    exact Nat.lt_succ_of_lt (h.lt s hs)
  · rcases Nat.lt_trichotomy s w.quantities.size with hs | rfl | hs
    · rw [(hold s hs).1, (hold s hs).2]
      exact h.alike s
    · have hnew : (w.makeQuantity q).quantity w.quantities.size = q := Arena.get_alloc_self
      have hnew' : (t.makeQuantity q').quantity w.quantities.size = q' := by
        rw [← h.size]
        exact Arena.get_alloc_self
      rw [hnew, hnew', hq]
    · have hout : ∀ (v : Sketch K) q, v.quantities.size = w.quantities.size →
          (v.makeQuantity q).quantity s = default := fun v q hv => by
        refine Arena.get_of_size_le ?_
        rw [hsize, hv]
        exact hs
      rw [hout w q rfl, hout t q' h.size]
  · rw [(hold s (h.lt s hs)).1, (hold s (h.lt s hs)).2]
    exact h.owned s hs

theorem declare (h : Twin f P L w t) (hr : r < w.quantities.size)
    (hq : t.quantity r = (w.quantity r).under f) : Twin f P L (w.declare r) (t.declare r) := by
  have hmem : ∀ s, s ∈ (w.declare r).declared ∨ L s → (s ∈ w.declared ∨ L s) ∨ s = r := by
    intro s hs
    rcases hs with hs | hs
    · exact (List.mem_append.1 hs).imp .inl List.mem_singleton.1
    · exact .inl (.inr hs)
  refine ⟨h.scene, ?_, h.nextQuantity, h.size, fun s hs => ?_, h.alike, fun s hs => ?_⟩
  · show t.declared ++ [r] = w.declared ++ [r]
    rw [h.declared]
  · rcases hmem s hs with hs | rfl
    · exact h.lt s hs
    · exact hr
  · rcases hmem s hs with hs | rfl
    · exact h.owned s hs
    · exact hq

/-- Bounds that refer to the key are opened in each quantity of a list. -/
theorem openReferences (h : Twin f P L w t) (k : Key) (l : List Ref) : Twin f P L
    { w with quantities := l.foldl (fun a r => a.modify r (·.openReference k)) w.quantities }
    { t with quantities := l.foldl (fun a r => a.modify r (·.openReference k)) t.quantities } := by
  induction l generalizing w t with
  | nil => exact h
  | cons r l ih =>
    have hstep : Twin f P L (w.changeQuantity r (·.openReference k))
        (t.changeQuantity r (·.openReference k)) :=
      h.changeQuantity r (fun _ _ hq => congrArg (Quantity.openReference · k) hq) fun _ => rfl
    exact ih hstep

theorem strike (h : Twin f P L w t) (k : Key) : Twin f P L (w.strike k) (t.strike k) := by
  have hrest : (t.declared.filter fun r => some (t.quantity r).id != k) =
      w.declared.filter fun r => some (w.quantity r).id != k := by
    simp only [h.declared, h.id]
  have hall := h.openReferences k (w.declared.filter fun r => some (w.quantity r).id != k)
  unfold Sketch.strike
  rw [hrest]
  exact { hall with
    declared := rfl
    lt := fun r hr => hall.lt r (hr.imp_left List.mem_of_mem_filter)
    owned := fun r hr => hall.owned r (hr.imp_left List.mem_of_mem_filter) }

end Twin

end Sketch

end Linkage
