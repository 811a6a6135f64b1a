import Linkage.Settings

/-!
# Settings that are fit for use

A check runs through a list of complaints and stops at the first one. Settings pass it exactly if
nothing is to be complained about (`Settings.check_eq_none_iff`): every value is a number, on the
right side of its bound.
-/

namespace Linkage.Settings

variable {K : Type} [Scalar K] {c c' : Settings K}

/-- A number for which the complaint `p` is not made. -/
def Passes (v : Value K) (p : K → Bool) : Prop := ∃ n, v.number? = some n ∧ p n.val = false

theorem Passes.exists_number {v : Value K} {p : K → Bool} (h : Passes v p) :
    ∃ n, v = .number n ∧ p n.val = false := by
  obtain ⟨n, hn, hp⟩ := h
  cases v with
  | number n' => exact ⟨n, congrArg _ (Option.some.inj hn), hp⟩
  | _ => cases hn

theorem Passes.exists_val {v : Value K} {p : K → Bool} (h : Passes v p) :
    ∃ y, v.number?.map Number.val = some y ∧ p y = false := by
  obtain ⟨n, rfl, hp⟩ := h.exists_number
  exact ⟨n.val, rfl, hp⟩

structure Fit (c : Settings K) : Prop where
  stiffness : ∀ kind, Passes (c.stiffness kind) fun x => decide (x ≤ 0.0)
  damping : ∀ kind, Passes (c.damping kind) fun x => decide (x < 0.0)
  policy : isPolicy c.policy
  substeps : Passes c.substeps fun x => decide (x < 1.0)
  maxSubstep : Passes c.maxSubstep fun x => decide (x ≤ 0.0)
  friction : Passes c.friction fun x => decide (x < 0.0)
  lengthCap : Passes c.lengthCap fun x => decide (x ≤ 0.0)

omit [Scalar K] in
theorem firstOf_eq_none_iff {cs : List (Unit → Except (Failure K) (Option (Misfit K)))} :
    firstOf cs = .ok none ↔ ∀ c ∈ cs, c () = .ok none := by
  induction cs with
  | nil => simp [firstOf]
  | cons c cs ih =>
    rw [firstOf, List.forall_mem_cons]
    split
    · next h => rw [ih, and_iff_right h]
    · next h => exact iff_of_false (fun e => h e) fun e => h e.1

theorem complain_eq_none_iff {v : Value K} {p : K → Bool} {m : Misfit K} :
    complain v p m = .ok none ↔ Passes v p := by
  unfold complain Passes
  cases v.number? with
  | none => simp [asNumber, Except.map]
  | some n => cases h : p n.val <;> simp [asNumber, Except.map, h]

theorem checkSprings_eq_none_iff :
    c.checkSprings = .ok none ↔ ∀ kind, Passes (c.stiffness kind) (fun x => decide (x ≤ 0.0)) ∧
      Passes (c.damping kind) fun x => decide (x < 0.0) := by
  have hkind : ∀ kind, c.checkKind kind = .ok none ↔
      Passes (c.stiffness kind) (fun x => decide (x ≤ 0.0)) ∧
        Passes (c.damping kind) fun x => decide (x < 0.0) := fun kind => by
    simp [checkKind, firstOf_eq_none_iff, complain_eq_none_iff]
  have hall : ∀ kind, kind ∈ SpringKind.all := fun kind => by
    cases kind <;> simp [SpringKind.all]
  simp [checkSprings, firstOf_eq_none_iff, hkind, hall]

theorem check_eq_none_iff : c.check = .ok none ↔ c.Fit := by
  have hpolicy : (.ok (if isPolicy c.policy then none else some (.unknownPolicy c.policy)) :
      Except (Failure K) (Option (Misfit K))) = .ok none ↔ isPolicy c.policy := by
    split <;> simp [*]
  simp only [check, checkIntegration, firstOf_eq_none_iff, checkSprings_eq_none_iff,
    List.forall_mem_cons, List.not_mem_nil, false_imp_iff, implies_true, and_true,
    complain_eq_none_iff, hpolicy]
  constructor
  · rintro ⟨hs, hp, hn, hm, hf, hl⟩
    exact ⟨fun kind => (hs kind).1, fun kind => (hs kind).2, hp, hn, hm, hf, hl⟩
  · intro h
    exact ⟨fun kind => ⟨h.stiffness kind, h.damping kind⟩, h.policy, h.substeps, h.maxSubstep,
      h.friction, h.lengthCap⟩

theorem checked_eq_ok_iff : c.checked = .ok c' ↔ c.Fit ∧ c' = c := by
  rw [← check_eq_none_iff]
  unfold checked
  cases c.check with
  | error e => simp [bind, Except.bind]
  | ok m => cases m <;> simp [bind, Except.bind, pure, Except.pure, throw, throwThe,
      MonadExceptOf.throw, eq_comm]

end Linkage.Settings
