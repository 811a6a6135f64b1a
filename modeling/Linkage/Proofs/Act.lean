import Linkage.Act

/-!
# What holds after an action

`x.wp Q s` says that `x`, started in `s`, ends in an outcome and a state for which `Q` holds. An
action that fails ends too: what is shown by `wp` is shown of failing calls as well.

`wp_bind` and its companions take a `do` block apart; `wp_forEach` and `wp_forEach_ok` are the rules
for loops.

`x.tells P s` says that all events that `x` reports on its way are as `P` says.
-/

namespace Linkage

theorem bind_eq_ok_iff {ε α β : Type} {x : Except ε α} {f : α → Except ε β} {b : β} :
    x.bind f = .ok b ↔ ∃ a, x = .ok a ∧ f a = .ok b := by
  cases x <;> simp [Except.bind]

theorem bind_eq_error_iff {ε α β : Type} {x : Except ε α} {f : α → Except ε β} {e : ε} :
    x.bind f = .error e ↔ x = .error e ∨ ∃ a, x = .ok a ∧ f a = .error e := by
  cases x <;> simp [Except.bind]

theorem map_eq_ok_iff {ε α β : Type} {x : Except ε α} {f : α → β} {b : β} :
    x.map f = .ok b ↔ ∃ a, x = .ok a ∧ f a = b := by
  cases x <;> simp [Except.map]

theorem asNumber_eq_ok_iff {K α : Type} {o : Option α} {a : α} :
    (asNumber o : Except (Failure K) α) = .ok a ↔ o = some a := by
  cases o <;> simp [asNumber]

theorem asNumber_eq_error_iff {K α : Type} {o : Option α} {e : Failure K} :
    asNumber o = .error e ↔ o = none ∧ e = .notANumber := by
  cases o <;> simp [asNumber, eq_comm]

end Linkage

namespace Linkage.Act

variable {K σ τ α β : Type} {s : σ} {Q Q' : Except (Failure K) α → σ → Prop}

def wp (x : Act K σ α) (Q : Except (Failure K) α → σ → Prop) (s : σ) : Prop :=
  Q (x s).outcome (x s).state

/-- What has to hold between an action and the one that follows it. -/
def next (f : α → Act K σ β) (Q : Except (Failure K) β → σ → Prop) :
    Except (Failure K) α → σ → Prop
  | .ok a, s => (f a).wp Q s
  | .error e, s => Q (.error e) s

theorem wp.mono {x : Act K σ α} (h : x.wp Q s) (hQ : ∀ o t, Q o t → Q' o t) : x.wp Q' s :=
  hQ _ _ h

theorem wp.and {x : Act K σ α} (h : x.wp Q s) (h' : x.wp Q' s) :
    x.wp (fun o t => Q o t ∧ Q' o t) s :=
  ⟨h, h'⟩

theorem wp_pure (a : α) : (pure a : Act K σ α).wp Q s ↔ Q (.ok a) s := Iff.rfl

theorem wp_fail (e : Failure K) : (fail e : Act K σ α).wp Q s ↔ Q (.error e) s := Iff.rfl

theorem wp_ofExcept (r : Except (Failure K) α) : (ofExcept r : Act K σ α).wp Q s ↔ Q r s := Iff.rfl

theorem wp_read {Q : Except (Failure K) σ → σ → Prop} : (read : Act K σ σ).wp Q s ↔ Q (.ok s) s :=
  Iff.rfl

theorem wp_change {Q : Except (Failure K) Unit → σ → Prop} (g : σ → σ) :
    (change g : Act K σ Unit).wp Q s ↔ Q (.ok ()) (g s) :=
  Iff.rfl

theorem wp_report {Q : Except (Failure K) Unit → σ → Prop} (e : Event K) :
    (report e : Act K σ Unit).wp Q s ↔ Q (.ok ()) s :=
  Iff.rfl

theorem next_ok (f : α → Act K σ β) (Q : Except (Failure K) β → σ → Prop) (a : α) :
    next f Q (.ok a) s ↔ (f a).wp Q s :=
  Iff.rfl

theorem next_error (f : α → Act K σ β) (Q : Except (Failure K) β → σ → Prop) (e : Failure K) :
    next f Q (.error e) s ↔ Q (.error e) s :=
  Iff.rfl

theorem wp_bind (x : Act K σ α) (f : α → Act K σ β) (Q : Except (Failure K) β → σ → Prop) :
    (x >>= f).wp Q s ↔ x.wp (next f Q) s := by
  show Q ((x >>= f) s).outcome ((x >>= f) s).state ↔ next f Q (x s).outcome (x s).state
  cases h : (x s).outcome with
  | error e => rw [bind_apply_error h, next_error]
  | ok a => rw [bind_apply_ok h]; exact Iff.rfl

theorem wp_ite (c : Prop) [Decidable c] (x y : Act K σ α) :
    (if c then x else y).wp Q s ↔ if c then x.wp Q s else y.wp Q s := by
  split <;> exact Iff.rfl

/-- For a property of the state alone: it is enough that both actions keep it. -/
theorem wp_bind_keep {I : σ → Prop} {x : Act K σ α} {f : α → Act K σ β}
    (hx : x.wp (fun _ t => I t) s) (hf : ∀ a t, I t → (f a).wp (fun _ t' => I t') t) :
    (x >>= f).wp (fun _ t => I t) s := by
  rw [wp_bind]
  refine hx.mono fun o t h => ?_
  cases o with
  | error e => exact h
  | ok a => exact hf a t h

/-- An action that only looks and may fail, then another one with what was found. -/
theorem wp_bind_look {x : Act K σ α} {f : α → Act K σ β} {Q : Except (Failure K) β → σ → Prop}
    (hx : x.wp (fun _ t => t = s) s) (he : ∀ e, Q (.error e) s)
    (hf : ∀ a, (x s).outcome = .ok a → (f a).wp Q s) : (x >>= f).wp Q s := by
  have hs : (x s).state = s := hx
  rw [wp_bind, wp, hs]
  cases ho : (x s).outcome with
  | error e => exact he e
  | ok a => exact hf a ho

theorem wp_bind_check {I : σ → Prop} {x : Act K σ α} {f : α → Act K σ β}
    (hx : x.wp (fun _ t => t = s) s) (h : I s) (hf : ∀ a, (f a).wp (fun _ t => I t) s) :
    (x >>= f).wp (fun _ t => I t) s :=
  wp_bind_look hx (fun _ => h) fun a _ => hf a

section

variable {g : β → Act K σ Unit} {l : List β}

theorem wp_forEach_cons {Q : Except (Failure K) Unit → σ → Prop} (b : β) :
    (forEach g (b :: l)).wp Q s ↔ (g b).wp (next (fun _ => forEach g l) Q) s := by
  rw [forEach_cons, wp_bind]

/-- What every round keeps holds in the end, wherever the loop ended. -/
theorem wp_forEach {I : σ → Prop} (h : I s)
    (step : ∀ b ∈ l, ∀ t, I t → (g b).wp (fun _ t' => I t') t) :
    (forEach g l).wp (fun _ t => I t) s := by
  induction l generalizing s with
  | nil => exact h
  | cons b l ih =>
    rw [forEach_cons]
    exact wp_bind_keep (step b (by simp) s h)
      fun _ t ht => ih ht fun b' hb' => step b' (by simp [hb'])

/-- A loop whose rounds all succeed; the invariant may speak of the items done. -/
theorem wp_forEach_ok {I : List β → σ → Prop} (h : I [] s)
    (step : ∀ done b rest, l = done ++ b :: rest → ∀ t, I done t →
      (g b).wp (fun o t' => o = .ok () ∧ I (done ++ [b]) t') t) :
    (forEach g l).wp (fun o t => o = .ok () ∧ I l t) s := by
  suffices ∀ rest done t, l = done ++ rest → I done t →
      (forEach g rest).wp (fun o t => o = .ok () ∧ I l t) t from this l [] s rfl h
  intro rest
  induction rest with
  | nil =>
    intro done t hl ht
    rw [hl, List.append_nil]
    exact ⟨rfl, ht⟩
  | cons b rest ih =>
    intro done t hl ht
    rw [wp_forEach_cons]
    refine (step done b rest hl t ht).mono fun o t' => ?_
    rintro ⟨rfl, ht'⟩
    exact ih (done ++ [b]) t' (by simp [hl]) ht'

theorem wp_times {x : Act K σ Unit} {I : σ → Prop} (h : I s)
    (step : ∀ t, I t → x.wp (fun _ t' => I t') t) (n : Nat) :
    (times n x).wp (fun _ t => I t) s := by
  induction n generalizing s with
  | zero => exact h
  | succ n ih =>
    rw [times_succ]
    exact wp_bind_keep (step s h) fun _ t ht => ih ht

/-- `I` holds wherever the repetition ends, and `R` besides as long as nothing has failed. -/
theorem wp_times_ok {x : Act K σ Unit} {I R : σ → Prop} (h : I s) (hr : R s)
    (step : ∀ t, I t → R t → x.wp (fun o t' => I t' ∧ (o = .ok () → R t')) t) (n : Nat) :
    (times n x).wp (fun o t => I t ∧ (o = .ok () → R t)) s := by
  induction n generalizing s with
  | zero => exact ⟨h, fun _ => hr⟩
  | succ n ih =>
    rw [times_succ, wp_bind]
    refine (step s h hr).mono fun o t => ?_
    rintro ⟨ht, ho⟩
    cases o with
    | error e => exact ⟨ht, fun e => by cases e⟩
    | ok _ => exact ih ht (ho rfl)

end

/-! ### Reports of composed actions -/

section

variable {x : Act K σ α} {f : α → Act K σ β}

theorem bind_assoc {γ : Type} {g : β → Act K σ γ} :
    (x >>= f >>= g) = x >>= fun a => f a >>= g := by
  funext s
  cases hx : (x s).outcome with
  | error e =>
    have hf : ((x >>= f) s).outcome = .error e := by rw [bind_apply_error hx]
    rw [bind_apply_error hf, bind_apply_error hx, bind_apply_error hx]
  | ok a =>
    cases hf : (f a (x s).state).outcome with
    | error e => simp [bind_apply, hx, hf]
    | ok b => simp [bind_apply, hx, hf]

/-- An action that succeeds has got through its first part. -/
theorem exists_of_bind_ok {b : β} (h : ((x >>= f) s).outcome = .ok b) :
    ∃ a, (x s).outcome = .ok a ∧ (f a (x s).state).outcome = .ok b ∧
      ((x >>= f) s).state = (f a (x s).state).state := by
  cases hx : (x s).outcome with
  | error e =>
    rw [bind_apply_error hx] at h
    cases h
  | ok a =>
    rw [bind_apply_ok hx] at h ⊢
    exact ⟨a, rfl, h, rfl⟩

theorem bind_congr_left {y : Act K σ α} (h : x s = y s) : (x >>= f) s = (y >>= f) s := by
  rw [bind_apply, bind_apply, h]

theorem bind_unit (x : Act K σ Unit) : (x >>= fun _ => pure ()) = x := by
  funext s
  show (x >>= fun _ => pure ()) s = ⟨(x s).outcome, (x s).state, (x s).events⟩
  rw [bind_apply]
  cases (x s).outcome <;> simp

theorem ofExcept_bind (a : α) : (ofExcept (.ok a) >>= f) = f a := rfl

theorem read_bind {f : σ → Act K σ β} : (read >>= f) s = f s s := rfl

theorem times_add (x : Act K σ Unit) (j k : Nat) :
    times (j + k) x = (do times j x; times k x) := by
  induction j with
  | zero =>
    rw [Nat.zero_add]
    rfl
  | succ j ih => rw [Nat.succ_add, times_succ, times_succ, bind_assoc, ih]

theorem times_one (x : Act K σ Unit) : times 1 x = x := by
  rw [times_succ, times_zero, bind_unit]

end

/-! ### Events -/

section

variable {P : Event K → Prop} {x : Act K σ α} {f : α → Act K σ β}

def tells (P : Event K → Prop) (x : Act K σ α) (s : σ) : Prop := ∀ e ∈ (x s).events, P e

theorem tells_of_events_eq_nil (h : (x s).events = []) : x.tells P s := by
  intro e he
  rw [h] at he
  cases he

@[simp] theorem tells_pure (a : α) : (pure a : Act K σ α).tells P s := tells_of_events_eq_nil rfl

@[simp] theorem tells_fail (e : Failure K) : (fail e : Act K σ α).tells P s :=
  tells_of_events_eq_nil rfl

@[simp] theorem tells_ofExcept (r : Except (Failure K) α) : (ofExcept r : Act K σ α).tells P s :=
  tells_of_events_eq_nil rfl

@[simp] theorem tells_read : (read : Act K σ σ).tells P s := tells_of_events_eq_nil rfl

@[simp] theorem tells_change (g : σ → σ) : (change g : Act K σ Unit).tells P s :=
  tells_of_events_eq_nil rfl

@[simp] theorem tells_report (e : Event K) : (report e : Act K σ Unit).tells P s ↔ P e := by
  simp [tells]

theorem tells_ite (c : Prop) [Decidable c] (x y : Act K σ α) :
    (if c then x else y).tells P s ↔ if c then x.tells P s else y.tells P s := by
  split <;> exact Iff.rfl

theorem tells_bind : (x >>= f).tells P s ↔
    x.tells P s ∧ ∀ a, (x s).outcome = .ok a → (f a).tells P (x s).state := by
  unfold tells
  cases h : (x s).outcome with
  | error e => simp [bind_apply_error h]
  | ok a => simp [bind_apply_ok h, or_imp, forall_and]

theorem tells_bind_read {f : σ → Act K σ β} : (read >>= f).tells P s ↔ (f s).tells P s := by
  simp [tells_bind]

/-- An action that only looks, then another one. -/
theorem tells_bind_look (hs : x.wp (fun _ t => t = s) s) (hx : x.tells P s)
    (hf : ∀ a, (x s).outcome = .ok a → (f a).tells P s) : (x >>= f).tells P s := by
  refine tells_bind.2 ⟨hx, fun a ha => ?_⟩
  rw [show (x s).state = s from hs]
  exact hf a ha

/-- Where it does not matter what the first action has done. -/
theorem tells_bind_of_forall (hx : x.tells P s) (hf : ∀ a t, (f a).tells P t) :
    (x >>= f).tells P s :=
  tells_bind.2 ⟨hx, fun a _ => hf a _⟩

theorem tells_forEach {g : β → Act K σ Unit} {l : List β} {I : σ → Prop} (h : I s)
    (step : ∀ b ∈ l, ∀ t, I t → (g b).tells P t ∧ (g b).wp (fun _ t' => I t') t) :
    (forEach g l).tells P s := by
  induction l generalizing s with
  | nil => exact tells_pure ()
  | cons b l ih =>
    obtain ⟨hb, hI⟩ := step b (by simp) s h
    rw [forEach_cons]
    exact tells_bind.2 ⟨hb, fun _ _ => ih hI fun b' hb' => step b' (by simp [hb'])⟩

theorem tells_forEach_of_forall {g : β → Act K σ Unit} (l : List β)
    (h : ∀ b ∈ l, ∀ t, (g b).tells P t) : (forEach g l).tells P s :=
  tells_forEach (I := fun _ => True) trivial fun b hb t _ => ⟨h b hb t, trivial⟩

end

end Linkage.Act
