import Linkage.Proofs.Act

/-!
# Two actions side by side

`Mirrors T φ x y` says that `y` does to the image of a state what `x` does to the state: it fails
with the same failure or gives the image of what `x` gives, and it ends in the image of the state
that `x` ends in. Events are not compared. There is one rule for each way in which actions are put
together.
-/

namespace Linkage.Act

variable {K σ τ α α' β β' : Type} {T : σ → τ} {φ : α → α'} {ψ : β → β'}

def Mirrors (T : σ → τ) (φ : α → α') (x : Act K σ α) (y : Act K τ α') : Prop :=
  ∀ s, (y (T s)).outcome = (x s).outcome.map φ ∧ (y (T s)).state = T (x s).state

theorem mirrors_pure (a : α) : Mirrors T φ (pure a : Act K σ α) (pure (φ a)) := fun _ => ⟨rfl, rfl⟩

theorem mirrors_fail (e : Failure K) : Mirrors T φ (fail e) (fail e) := fun _ => ⟨rfl, rfl⟩

theorem mirrors_report (e e' : Event K) : Mirrors T id (report e) (report e') :=
  fun _ => ⟨rfl, rfl⟩

theorem mirrors_ofExcept {r : Except (Failure K) α} {r' : Except (Failure K) α'}
    (h : r' = r.map φ) : Mirrors T φ (ofExcept r) (ofExcept r') := fun _ => ⟨h, rfl⟩

/-- A result that is its own image. -/
theorem mirrors_ofExcept_id (r : Except (Failure K) α) : Mirrors T id (ofExcept r) (ofExcept r) :=
  mirrors_ofExcept (by cases r <;> rfl)

theorem mirrors_change {f : σ → σ} {g : τ → τ} (h : ∀ s, g (T s) = T (f s)) :
    Mirrors (K := K) T id (change f) (change g) := fun s => ⟨rfl, h s⟩

/-- What was read is the state itself, and its image on the other side. -/
theorem mirrors_bind_read {f : σ → Act K σ β} {g : τ → Act K τ β'}
    (h : ∀ s, Mirrors T ψ (f s) (g (T s))) : Mirrors T ψ (read >>= f) (read >>= g) :=
  fun s => h s s

theorem mirrors_bind {x : Act K σ α} {y : Act K τ α'} {f : α → Act K σ β} {g : α' → Act K τ β'}
    (hx : Mirrors T φ x y) (hf : ∀ a, Mirrors T ψ (f a) (g (φ a))) :
    Mirrors T ψ (x >>= f) (y >>= g) := by
  intro s
  obtain ⟨ho, hs⟩ := hx s
  cases h : (x s).outcome with
  | error e =>
    rw [h] at ho
    rw [bind_apply_error h, bind_apply_error ho]
    exact ⟨rfl, hs⟩
  | ok a =>
    rw [h] at ho
    rw [bind_apply_ok h, bind_apply_ok ho, hs]
    exact hf a _

/-- Nothing comes after a failure. -/
theorem mirrors_error_bind {e : Failure K} {f : α → Act K σ β} {g : α' → Act K τ β'} :
    Mirrors T ψ (ofExcept (.error e) >>= f) (ofExcept (.error e) >>= g) := fun _ => ⟨rfl, rfl⟩

theorem mirrors_ite {c c' : Prop} [Decidable c] [Decidable c'] {x x' : Act K σ α}
    {y y' : Act K τ α'} (hc : c' ↔ c) (hx : Mirrors T φ x y) (hx' : Mirrors T φ x' y') :
    Mirrors T φ (if c then x else x') (if c' then y else y') := by
  by_cases h : c
  · rwa [if_pos h, if_pos (hc.2 h)]
  · rwa [if_neg h, if_neg (mt hc.1 h)]

theorem mirrors_forEach {f : β → Act K σ Unit} {g : β → Act K τ Unit}
    (h : ∀ b, Mirrors T id (f b) (g b)) (l : List β) :
    Mirrors T id (forEach f l) (forEach g l) := by
  induction l with
  | nil => exact mirrors_pure ()
  | cons b l ih => exact mirrors_bind (h b) fun _ => ih

theorem mirrors_times {x : Act K σ Unit} {y : Act K τ Unit} (h : Mirrors T id x y) (n : Nat) :
    Mirrors T id (times n x) (times n y) := by
  induction n with
  | zero => exact mirrors_pure ()
  | succ n ih =>
    rw [times_succ, times_succ]
    exact mirrors_bind h fun _ => ih

theorem mirrors_onPart {σ' τ' : Type} {S : σ' → τ'} {part : σ' → σ} {put : σ → σ' → σ'}
    {part' : τ' → τ} {put' : τ → τ' → τ'} {x : Act K σ α} {y : Act K τ α'}
    (hpart : ∀ t, part' (S t) = T (part t)) (hput : ∀ s t, put' (T s) (S t) = S (put s t))
    (h : Mirrors T φ x y) : Mirrors S φ (x.onPart part put) (y.onPart part' put') := by
  intro t
  obtain ⟨ho, hs⟩ := h (part t)
  rw [← hpart] at ho hs
  exact ⟨ho, (congrArg (put' · (S t)) hs).trans (hput _ _)⟩

end Linkage.Act
