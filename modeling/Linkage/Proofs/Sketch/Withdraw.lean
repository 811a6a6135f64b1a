import Linkage.Proofs.Scene.Frame
import Linkage.Proofs.Sketch.Edit
import Linkage.Sketch.Withdraw

/-!
# Withdrawing keeps a sketch sound

A captive or a quantity goes with its springs, and no quantity owns more than it did before
(`Sketch.Shrunk`).
-/

namespace Linkage.Sketch

open Act

variable {K : Type} [Scalar K] {w t : Sketch K} {k : Key} {r : Ref} {i : Id}

/-! ### Captives and quantities go -/

/-- A captive is let go: its spring is gone, and so is what was written down of it. -/
theorem release_spec (h : w.Sound) {rail node : Key} {s : Id} (hr : w.quantityRef? rail = some r)
    (hs : (w.quantity r).springHolding? node = some s) :
    (release rail node).wp
      (fun o t => o = .ok () ∧ ∃ v, Scene.Freed w.toScene v [s] ∧
        t = (w.changeQuantity r (·.release node s)).withScene v) w := by
  unfold release
  rw [wp_bind, wp_needQuantity, hr]
  simp only [next_ok, wp_bind, wp_read, hs, wp_change, wp_onScene]
  refine (Scene.deleteSpring_freed h.scene s).mono fun o v hv => ?_
  obtain ⟨rfl, hv⟩ := hv
  exact ⟨rfl, v, hv, rfl⟩

/-- A node that is not held is passed over. -/
theorem release_absent {rail node : Key} (hr : w.quantityRef? rail = some r)
    (hs : (w.quantity r).springHolding? node = none) :
    (release rail node).wp (fun o t => o = .ok () ∧ t = w) w := by
  unfold release
  rw [wp_bind, wp_needQuantity, hr]
  simp only [next_ok, wp_bind, wp_read, hs, wp_pure, and_self]

theorem release_shrunk (h : w.Sound) (rail node : Key) :
    (release rail node).wp (fun _ t => Shrunk w t) w := by
  cases hr : w.quantityRef? rail with
  | none =>
    unfold release
    refine wp_bind_needQuantity (.refl h) fun r hr' => ?_
    cases hr.symm.trans hr'
  | some r =>
    cases hs : (w.quantity r).springHolding? node with
    | none =>
      refine (release_absent hr hs).mono fun o t ht => ?_
      rw [ht.2]
      exact .refl h
    | some s =>
      refine (release_spec h hr hs).mono fun o t => ?_
      rintro ⟨-, v, hv, rfl⟩
      have hc := shrunk_release h (of_quantityRef?_eq_some hr).1 hs
      exact hc.trans (shrunk_withScene hc.sound hv.onward hv.struck.spared)

theorem forEach_deleteSpring (h : w.Sound) (ids : List Id) :
    (forEach (fun i => (Scene.deleteSpring (some i)).onScene) ids).wp
      (fun o t => o = .ok () ∧ ∃ v, Scene.Freed w.toScene v ids ∧ t = w.withScene v) w := by
  refine wp_forEach_ok (I := fun done t => ∃ v, Scene.Freed w.toScene v done ∧ t = w.withScene v)
    ⟨_, .refl h.scene, rfl⟩ ?_
  rintro done i rest - t ⟨v, hv, rfl⟩
  rw [wp_onScene]
  refine (Scene.deleteSpring_freed (w := v) hv.onward.sound i).mono fun o v' hv' => ?_
  obtain ⟨rfl, hv'⟩ := hv'
  exact ⟨rfl, v', hv.trans hv', rfl⟩

/-- The quantity goes with its springs and with the references to it. -/
theorem withdraw_spec (h : w.Sound) (hr : w.quantityRef? k = some r) :
    (withdraw k).wp
      (fun o t => o = .ok () ∧ ∃ v, Scene.Freed w.toScene v (w.quantity r).springIds ∧
        t = (w.withScene v).retire r k) w := by
  unfold withdraw
  rw [wp_bind, wp_report, next_ok, wp_bind, wp_read, next_ok, hr]
  simp only [wp_bind]
  refine (forEach_deleteSpring h _).mono fun o t ht => ?_
  obtain ⟨rfl, v, hv, rfl⟩ := ht
  exact ⟨rfl, v, hv, rfl⟩

theorem withdraw_shrunk (h : w.Sound) (k : Key) :
    (withdraw k).wp (fun _ t => Shrunk w t) w := by
  cases hr : w.quantityRef? k with
  | none =>
    unfold withdraw
    rw [wp_bind, wp_report, next_ok, wp_bind, wp_read, next_ok, hr]
    exact .refl h
  | some r =>
    refine (withdraw_spec h hr).mono fun o t => ?_
    rintro ⟨-, v, hv, rfl⟩
    have hw := shrunk_withScene h hv.onward hv.struck.spared
    exact hw.trans (shrunk_retire hw.sound hr)

end Linkage.Sketch
