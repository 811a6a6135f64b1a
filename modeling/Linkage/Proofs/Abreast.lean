import Linkage.Proofs.Act

/-!
# Two actions abreast

`Abreast E Q x y s t` says that `x`, started in `s`, and `y`, started in `t`, both fail or both
succeed: `E` holds of the states after failures, and `Q` of the results and the states after
successes. Neither state needs to be a function of the other, and neither failures nor events are
compared. There is one rule for each way in which actions are put together.
-/

namespace Linkage.Act

variable {K σ τ α α' β β' : Type} {s : σ} {t : τ} {E E' : σ → τ → Prop}

def Abreast (E : σ → τ → Prop) (Q : α → α' → σ → τ → Prop) (x : Act K σ α) (y : Act K τ α') (s : σ)
    (t : τ) : Prop :=
  match (x s).outcome, (y t).outcome with
  | .ok a, .ok b => Q a b (x s).state (y t).state
  | .error _, .error _ => E (x s).state (y t).state
  | _, _ => False

/-- Whether they fail or succeed, the states are related, and nothing is said of results. -/
def Keep (I : σ → τ → Prop) (x : Act K σ α) (y : Act K τ α') (s : σ) (t : τ) : Prop :=
  Abreast I (fun _ _ => I) x y s t

/-- The results are the same. -/
def Agreed (I : σ → τ → Prop) (a b : α) (s : σ) (t : τ) : Prop := b = a ∧ I s t

section

variable {Q Q' : α → α' → σ → τ → Prop} {x x' : Act K σ α} {y y' : Act K τ α'}

theorem Abreast.mono (h : Abreast E Q x y s t) (hE : ∀ s t, E s t → E' s t)
    (hQ : ∀ a b s t, Q a b s t → Q' a b s t) : Abreast E' Q' x y s t := by
  unfold Abreast at h ⊢
  cases hx : (x s).outcome <;> cases hy : (y t).outcome <;> simp only [hx, hy] at h ⊢
  · exact hE _ _ h
  · exact hQ _ _ _ _ h

/-- Where results do not matter. -/
theorem Abreast.keep (h : Abreast E Q x y s t) (hQ : ∀ a b s t, Q a b s t → E s t) :
    Keep E x y s t :=
  h.mono (fun _ _ => id) hQ

theorem Keep.state (h : Keep E x y s t) : E (x s).state (y t).state := by
  unfold Keep Abreast at h
  cases hx : (x s).outcome <;> cases hy : (y t).outcome <;> simp only [hx, hy] at h
  · exact h
  · exact h

/-- One and the same result on both sides. -/
theorem abreast_ofExcept {Q : α → α → σ → τ → Prop} (he : E s t) (r : Except (Failure K) α)
    (hQ : ∀ a, r = .ok a → Q a a s t) : Abreast E Q (ofExcept r) (ofExcept r) s t := by
  cases r with
  | error e => exact he
  | ok a => exact hQ a rfl

theorem abreast_ite {c c' : Prop} [Decidable c] [Decidable c'] (hc : c' ↔ c)
    (h : Abreast E Q x y s t) (h' : Abreast E Q x' y' s t) :
    Abreast E Q (if c then x else x') (if c' then y else y') s t := by
  by_cases hc' : c
  · rwa [if_pos hc', if_pos (hc.2 hc')]
  · rwa [if_neg hc', if_neg (mt hc.1 hc')]

end

section

variable {P : α → α' → σ → τ → Prop} {Q : β → β' → σ → τ → Prop} {x : Act K σ α} {y : Act K τ α'}
  {f : α → Act K σ β} {g : α' → Act K τ β'}

theorem Abreast.bind (h : Abreast E P x y s t)
    (hf : ∀ a b s t, P a b s t → Abreast E Q (f a) (g b) s t) :
    Abreast E Q (x >>= f) (y >>= g) s t := by
  unfold Abreast at h ⊢
  cases hx : (x s).outcome with
  | error e =>
    cases hy : (y t).outcome with
    | error e' =>
      rw [bind_apply_error hx, bind_apply_error hy]
      simpa only [hx, hy] using h
    | ok b => simp only [hx, hy] at h
  | ok a =>
    cases hy : (y t).outcome with
    | error e' => simp only [hx, hy] at h
    | ok b =>
      rw [bind_apply_ok hx, bind_apply_ok hy]
      simp only [hx, hy] at h
      exact hf a b _ _ h

theorem Abreast.bind_agreed {I : σ → τ → Prop} {y : Act K τ α} {g : α → Act K τ β'}
    (h : Abreast E (Agreed I) x y s t) (hf : ∀ a s t, I s t → Abreast E Q (f a) (g a) s t) :
    Abreast E Q (x >>= f) (y >>= g) s t := by
  refine h.bind fun a b s t h => ?_
  obtain ⟨rfl, h⟩ := h
  exact hf _ s t h

/-- What was read are the states themselves. -/
theorem abreast_bind_read {f : σ → Act K σ β} {g : τ → Act K τ β'} :
    Abreast E Q (read >>= f) (read >>= g) s t ↔ Abreast E Q (f s) (g t) s t :=
  Iff.rfl

theorem abreast_bind_report {f : Unit → Act K σ β} {g : Unit → Act K τ β'} (e e' : Event K) :
    Abreast E Q (report e >>= f) (report e' >>= g) s t ↔ Abreast E Q (f ()) (g ()) s t :=
  Iff.rfl

theorem abreast_bind_change {f : Unit → Act K σ β} {g : Unit → Act K τ β'} (c : σ → σ)
    (d : τ → τ) :
    Abreast E Q (change c >>= f) (change d >>= g) s t ↔
      Abreast E Q (f ()) (g ()) (c s) (d t) :=
  Iff.rfl

theorem abreast_bind_ofExcept {g : α → Act K τ β'} (he : E s t) (r : Except (Failure K) α)
    (hf : ∀ a, r = .ok a → Abreast E Q (f a) (g a) s t) :
    Abreast E Q (ofExcept r >>= f) (ofExcept r >>= g) s t :=
  (abreast_ofExcept (Q := fun a b s' t' => s' = s ∧ t' = t ∧ b = a ∧ r = .ok a) he r
    fun _ hr => ⟨rfl, rfl, rfl, hr⟩).bind fun _ _ _ _ h => by
      obtain ⟨rfl, rfl, rfl, hr⟩ := h
      exact hf _ hr

end

section

variable {I : σ → τ → Prop}

/-- The rounds of two loops keep the states related. The items of the second loop are the items of
the first one under another name. -/
theorem keep_forEach {φ : β → β'} {f : β → Act K σ Unit} {g : β' → Act K τ Unit} {l : List β}
    {l' : List β'} (h : I s t) (hl : l' = l.map φ)
    (step : ∀ b ∈ l, ∀ s t, I s t → Keep I (f b) (g (φ b)) s t) :
    Keep I (forEach f l) (forEach g l') s t := by
  subst hl
  induction l generalizing s t with
  | nil => exact h
  | cons b l ih =>
    rw [List.map_cons, forEach_cons, forEach_cons]
    exact Abreast.bind (step b (by simp) s t h) fun _ _ _ _ h' =>
      ih h' fun b' hb' => step b' (by simp [hb'])

theorem keep_forEach_same {f : β → Act K σ Unit} {g : β → Act K τ Unit} {l : List β} (h : I s t)
    (step : ∀ b ∈ l, ∀ s t, I s t → Keep I (f b) (g b) s t) :
    Keep I (forEach f l) (forEach g l) s t :=
  keep_forEach h (List.map_id l).symm step

theorem abreast_times {R : σ → τ → Prop} {x : Act K σ Unit} {y : Act K τ Unit} (h : R s t)
    (step : ∀ s t, R s t → Abreast E (fun _ _ => R) x y s t) (n : Nat) :
    Abreast E (fun _ _ => R) (times n x) (times n y) s t := by
  induction n generalizing s t with
  | zero => exact h
  | succ n ih =>
    rw [times_succ, times_succ]
    exact Abreast.bind (step s t h) fun _ _ _ _ h' => ih h'

/-- Actions on parts of the states. -/
theorem Abreast.onPart {σ' τ' : Type} {s : σ'} {t : τ'} {part : σ' → σ} {put : σ → σ' → σ'}
    {part' : τ' → τ} {put' : τ → τ' → τ'} {x : Act K σ α} {y : Act K τ α'}
    {Q : α → α' → σ → τ → Prop} {E' : σ' → τ' → Prop} {Q' : α → α' → σ' → τ' → Prop}
    (h : Abreast E Q x y (part s) (part' t)) (hE : ∀ u v, E u v → E' (put u s) (put' v t))
    (hQ : ∀ a b u v, Q a b u v → Q' a b (put u s) (put' v t)) :
    Abreast E' Q' (x.onPart part put) (y.onPart part' put') s t := by
  unfold Abreast at h ⊢
  show match (x (part s)).outcome, (y (part' t)).outcome with
    | .ok a, .ok b => Q' a b (put (x (part s)).state s) (put' (y (part' t)).state t)
    | .error _, .error _ => E' (put (x (part s)).state s) (put' (y (part' t)).state t)
    | _, _ => False
  cases hx : (x (part s)).outcome <;> cases hy : (y (part' t)).outcome <;>
    simp only [hx, hy] at h ⊢
  · exact hE _ _ h
  · exact hQ _ _ _ _ h

end

end Linkage.Act
