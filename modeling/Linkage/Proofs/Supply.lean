import Linkage.Proofs.Lasting
import Linkage.Proofs.Stepping

/-!
# Where springs have their constants from

A scene gives a spring that it makes the constants that its settings have for springs of its kind,
and no operation changes them while the spring is listed. So after every run a listed spring has
them, unless it was made elsewhere and listed by hand (`Bench.supplied_after`). Of the constants of
springs no others need to be looked at before a frame (`Bench.numeric_after`).
-/

namespace Linkage

open Act

variable {K : Type} [Scalar K] {r : Ref}

/-- What is done with a spring elsewhere does not list it. -/
theorem Scene.Op.enters_of_lists {w : Scene K} {o : Scene.Op K} (ho : o.Lists w r)
    (hr : r ∈ (o.step w).graph.listed) : o = .enterSpring r ∨ o.step w = w := by
  cases o with
  | enterSpring r' => exact .inl (congrArg _ ho)
  | elsewhere r' s =>
    obtain ⟨rfl, -⟩ := ho
    have hact : (act (.elsewhere r' s)).wp
        (fun _ t => t.graph.listed = w.graph.listed ∧ (r' ∈ w.graph.listed → t = w)) w := by
      unfold act
      rw [wp_bind, wp_read, next_ok, wp_ite]
      split
      · exact ⟨rfl, fun _ => rfl⟩
      · next hnot => exact ⟨rfl, fun hmem => absurd hmem hnot⟩
    obtain ⟨hlisted, hsame⟩ := hact
    exact .inr (hsame (hlisted ▸ hr))
  | _ => exact ho.elim

namespace Bench

variable {w : Bench K}

theorem Op.enters_of_lists {o : Op K} (ho : o.Lists w r) (hr : r ∈ (o.step w).graph.listed) :
    o = .sketch (.scene (.enterSpring r)) ∨ (o.step w).toScene = w.toScene := by
  cases o with
  | sketch o =>
    cases o with
    | scene o =>
      exact (Scene.Op.enters_of_lists ho hr).imp_left (congrArg fun o => sketch (.scene o))
    | _ => exact ho.elim
  | _ => exact ho.elim

/-- A spring that is listed after a step was listed by hand in it, or was listed before and has its
constants from then, or has them from the settings. -/
theorem Op.step_supplied (h : w.toSketch.Sound) (o : Op K) (hr : r ∈ (o.step w).graph.listed) :
    o = .sketch (.scene (.enterSpring r)) ∨
      (r ∈ w.graph.listed ∧ ((o.step w).spring r).kind = (w.spring r).kind ∧
        ((o.step w).spring r).constants = (w.spring r).constants) ∨
      ((o.step w).spring r).Supplied w.graph.config := by
  have hlast := o.step_lasting w
  by_cases hlists : o.Lists w r
  · refine (enters_of_lists hlists hr).imp_right fun hsame => .inl ?_
    rw [hsame] at hr ⊢
    exact ⟨hr, rfl, rfl⟩
  · right
    by_cases hrw : r ∈ w.graph.listed
    · obtain ⟨-, hk, -, hc, -⟩ := hlast.listed r hr (h.scene.listed_lt r hrw) hlists
      exact .inl ⟨hrw, hk, hc⟩
    · exact .inr (hlast.made r hr hrw hlists).2

section

variable (c : Config K) (springs : Arena (Spring K)) (quantities : Arena (Quantity K))
  (ops : List (Op K))

/-- After every run a listed spring has the constants that the settings have for springs of its
kind, or it was listed by hand. -/
theorem supplied_after :
    let w := after ops (empty c springs quantities)
    ∀ r ∈ w.graph.listed, .sketch (.scene (.enterSpring r)) ∈ ops ∨ (w.spring r).Supplied c := by
  dsimp only
  induction ops using List.reverseRecOn with
  | nil => exact fun r hr => absurd hr List.not_mem_nil
  | append_singleton ops o ih =>
    have hsound := sound_after c springs quantities ops
    have hconfig := config_after c springs quantities ops
    rw [after_concat]
    intro r hr
    rcases o.step_supplied hsound hr with rfl | ⟨hrw, hk, hc⟩ | hmade
    · exact .inl (List.mem_append_right _ (List.mem_singleton_self _))
    · exact (ih r hrw).imp (List.mem_append_left _) fun hs => hs.congr hk hc
    · rw [hconfig] at hmade
      exact .inr hmade

/-- Under settings with numbers for every kind, springs that were listed by hand are the only ones
whose constants may be no numbers. -/
theorem numeric_after (hc : ∀ kind, (c.constants kind).isSome) :
    let w := after ops (empty c springs quantities)
    (∀ r ∈ w.graph.listed, .sketch (.scene (.enterSpring r)) ∈ ops →
      (w.spring r).constants.isSome) → w.Numeric := by
  intro w hentered s hs
  obtain ⟨r, hr, rfl⟩ := List.mem_map.1 hs
  rcases supplied_after c springs quantities ops r hr with hmem | hsupplied
  · exact hentered r hr hmem
  · show (w.spring r).constants.isSome
    rw [show (w.spring r).constants = _ from hsupplied]
    exact hc _

end

end Bench

end Linkage
