import Linkage.Proofs.Abreast
import Linkage.Proofs.Momentum
import Mathlib.Data.List.Perm.Basic

/-!
# Scenes built in another order

The order in which a scene was built gives its nodes and springs their ids and their places in the
lists. With exact numbers that is all: of two scenes that are one scene under other ids and in
another order, a frame makes two scenes that are one scene in the same way
(`Bench.renamed_after_run`).

A renaming that makes one scene of another is one-to-one, because no id is given twice. What the
nodes keep of springs is not compared, because in a sound scene the springs say it.
-/

namespace Linkage

open Act

/-! ### Lists in another order -/

section

variable {α β γ δ ε : Type} {R : α → β → Prop} {l : List α} {l' : List β}

/-- Lists that correspond member by member are both changed member by member. -/
theorem forall₂_change {Q : γ → δ → Prop} {S : α → γ → Prop} {S' : β → δ → Prop} {u : List γ}
    {u' : List δ} (h : List.Forall₂ R l l') (hu : List.Forall₂ S l u)
    (hu' : List.Forall₂ S' l' u') (hR : ∀ a ∈ l, ∀ b c d, R a b → S a c → S' b d → Q c d) :
    List.Forall₂ Q u u' := by
  induction h generalizing u u' with
  | nil =>
    cases hu
    cases hu'
    exact .nil
  | cons hab _ ih =>
    cases hu with
    | cons hac hu =>
      cases hu' with
      | cons hbd hu' =>
        exact .cons (hR _ List.mem_cons_self _ _ _ hab hac hbd)
          (ih hu hu' fun a ha => hR a (List.mem_cons_of_mem _ ha))

theorem map_eq_of_forall₂ {f : α → γ} {g : β → γ} (h : List.Forall₂ R l l')
    (hR : ∀ a b, R a b → g b = f a) : l'.map g = l.map f := by
  induction h with
  | nil => rfl
  | cons hab _ ih => rw [List.map_cons, List.map_cons, hR _ _ hab, ih]

/-- The members of two lists correspond one to one, wherever they stand. -/
def Matched (R : α → β → Prop) (l : List α) (l' : List β) : Prop :=
  ∃ m, List.Forall₂ R l m ∧ m.Perm l'

namespace Matched

theorem nil_iff (h : Matched R l l') : l = [] ↔ l' = [] := by
  obtain ⟨m, hm, hperm⟩ := h
  rw [← List.length_eq_zero_iff, ← List.length_eq_zero_iff, hm.length_eq, hperm.length_eq]

theorem exists_mem (h : Matched R l l') {a : α} (ha : a ∈ l) : ∃ b ∈ l', R a b := by
  obtain ⟨m, hm, hperm⟩ := h
  obtain ⟨b, hb, hab⟩ := exists_mem_of_forall₂ (List.Forall₂.flip hm) ha
  exact ⟨b, hperm.subset hb, hab⟩

theorem exists_mem_right (h : Matched R l l') {b : β} (hb : b ∈ l') : ∃ a ∈ l, R a b := by
  obtain ⟨m, hm, hperm⟩ := h
  exact exists_mem_of_forall₂ hm (hperm.symm.subset hb)

theorem filter {p : α → Bool} {q : β → Bool} (h : Matched R l l')
    (hpq : ∀ a b, R a b → q b = p a) : Matched R (l.filter p) (l'.filter q) := by
  obtain ⟨m, hm, hperm⟩ := h
  exact ⟨m.filter q, List.rel_filter (fun a b hab => by simp only [hpq a b hab]) hm, hperm.filter q⟩

/-- Both lists are changed member by member. -/
theorem change {Q : γ → δ → Prop} {S : α → γ → Prop} {S' : β → δ → Prop} {u : List γ}
    {u' : List δ} (h : Matched R l l') (hu : List.Forall₂ S l u) (hu' : List.Forall₂ S' l' u')
    (hR : ∀ a ∈ l, ∀ b c d, R a b → S a c → S' b d → Q c d) : Matched Q u u' := by
  obtain ⟨m, hm, hperm⟩ := h
  obtain ⟨v, hv, hvu⟩ := List.perm_comp_forall₂ hperm hu'
  exact ⟨v, forall₂_change hm hu hv hR, hvu⟩

theorem map {Q : γ → δ → Prop} {f : α → γ} {g : β → δ} (h : Matched R l l')
    (hR : ∀ a ∈ l, ∀ b, R a b → Q (f a) (g b)) : Matched Q (l.map f) (l'.map g) := by
  have himage : ∀ {α γ : Type} (f : α → γ) (l : List α),
      List.Forall₂ (fun a c => c = f a) l (l.map f) := fun f l =>
    List.forall₂_map_right_iff.2 (List.forall₂_same.2 fun _ _ => rfl)
  refine h.change (himage f l) (himage g l') ?_
  rintro a ha b _ _ hab rfl rfl
  exact hR a ha b hab

/-- Where members that correspond give the same, the lists give the same in another order. -/
theorem perm_map {f : α → γ} {g : β → γ} (h : Matched R l l')
    (hR : ∀ a ∈ l, ∀ b, R a b → g b = f a) : (l.map f).Perm (l'.map g) := by
  obtain ⟨m, hm, hperm⟩ := h.map (Q := Eq) fun a ha b hab => (hR a ha b hab).symm
  rw [List.forall₂_eq_eq_eq] at hm
  rwa [hm]

end Matched

/-- Both fail, for one reason, or neither does. -/
def Agree (P : α → β → Prop) : Except ε α → Except ε β → Prop
  | .ok a, .ok b => P a b
  | .error e, .error e' => e' = e
  | _, _ => False

theorem Agree.eq_error {P : α → β → Prop} {x : Except ε α} {y : Except ε β} {e : ε}
    (h : Agree P x y) (hx : x = .error e) : y = .error e := by
  subst hx
  cases y with
  | error e' => exact congrArg _ h
  | ok b => exact h.elim

theorem Agree.exists_ok {P : α → β → Prop} {x : Except ε α} {y : Except ε β} {a : α}
    (h : Agree P x y) (hx : x = .ok a) : ∃ b, y = .ok b ∧ P a b := by
  subst hx
  cases y with
  | error e => exact h.elim
  | ok b => exact ⟨b, rfl, h⟩

theorem Agree.bind {P : α → β → Prop} {Q : γ → δ → Prop} {x : Except ε α} {y : Except ε β}
    {f : α → Except ε γ} {g : β → Except ε δ} (h : Agree P x y)
    (hf : ∀ a b, x = .ok a → y = .ok b → P a b → Agree Q (f a) (g b)) :
    Agree Q (x.bind f) (y.bind g) := by
  cases x with
  | error e =>
    cases y with
    | error e' => exact h
    | ok b => exact h.elim
  | ok a =>
    cases y with
    | error e' => exact h.elim
    | ok b => exact hf a b rfl rfl h

theorem Agree.map {P : α → β → Prop} {Q : γ → δ → Prop} {x : Except ε α} {y : Except ε β}
    {f : α → γ} {g : β → δ} (h : Agree P x y) (hf : ∀ a b, P a b → Q (f a) (g b)) :
    Agree Q (x.map f) (y.map g) := by
  cases x <;> cases y
  · exact h
  · exact h.elim
  · exact h.elim
  · exact hf _ _ h

/-- What both start from may be taken for granted. -/
theorem Agree.bind_same {Q : γ → δ → Prop} {x : Except ε α} {f : α → Except ε γ}
    {g : α → Except ε δ} (hf : ∀ a, Agree Q (f a) (g a)) : Agree Q (x.bind f) (x.bind g) := by
  cases x with
  | error e => exact rfl
  | ok a => exact hf a

/-- Lists that correspond member by member are gone through alike. -/
theorem Agree.mapM {Q : γ → δ → Prop} {f : α → Except ε γ} {g : β → Except ε δ}
    (h : List.Forall₂ R l l') (hf : ∀ a b, R a b → Agree Q (f a) (g b)) :
    Agree (List.Forall₂ Q) (l.mapM f) (l'.mapM g) := by
  induction h with
  | nil => exact List.Forall₂.nil
  | cons hab _ ih =>
    rw [List.mapM_cons, List.mapM_cons]
    refine Agree.bind (hf _ _ hab) fun c d _ _ hcd => ?_
    exact Agree.bind ih fun _ _ _ _ hrest => List.Forall₂.cons hcd hrest

end

variable {K : Type} {σ τ : Id → Id}

/-! ### Springs and bodies under other ids -/

def Anchor.renamed (σ : Id → Id) : Anchor K → Anchor K
  | point p => point p
  | node i => node (σ i)

namespace Spring

variable [Scalar K] {s t s' t' : Spring K} {a b : Point K} {h cap l : K} {i : Id}

/-- `t` is the spring `s` where the nodes are called by `σ` and the springs by `τ`. Bounds may be
written in another way. How much the springs are strained is not compared. -/
structure Renamed (σ τ : Id → Id) (s t : Spring K) : Prop where
  id : t.id = s.id.map τ
  kind : t.kind = s.kind
  a : t.a = s.a.renamed σ
  b : t.b = s.b.map σ
  constants : t.constants = s.constants
  lower : t.lower.map Number.val = s.lower.map Number.val
  upper : t.upper.map Number.val = s.upper.map Number.val
  expired : t.expired = s.expired
  railDirection : t.railDirection = s.railDirection
  atRailEnd : t.atRailEnd = s.atRailEnd

/-- They were displaced alike before. -/
structure Primed (σ τ : Id → Id) (s t : Spring K) : Prop extends Renamed σ τ s t where
  previous : t.strain.previous = s.strain.previous

/-- They are strained alike. -/
structure Tense (σ τ : Id → Id) (s t : Spring K) : Prop extends Renamed σ τ s t where
  strain : t.strain = s.strain

/-- They are displaced alike. -/
structure Shifted (σ τ : Id → Id) (s t : Spring K) : Prop extends Renamed σ τ s t where
  displacement : t.strain.displacement = s.strain.displacement
  previous : t.strain.previous = s.strain.previous
  rate : t.strain.rate = s.strain.rate

theorem Tense.primed (h : Tense σ τ s t) : Primed σ τ s t :=
  ⟨h.toRenamed, congrArg Strain.previous h.strain⟩

namespace Renamed

theorem displacementAt (hst : Renamed σ τ s t) (l : K) :
    t.displacementAt l = s.displacementAt l := by
  have hexcess : t.excess l = s.excess l := by
    have hupper := hst.upper
    unfold excess
    cases hs : s.upper <;> cases ht : t.upper <;> simp_all
  have hlower := hst.lower
  unfold Spring.displacementAt
  cases hs : s.lower <;> cases ht : t.lower <;> simp_all

theorem cappedAt (hst : Renamed σ τ s t) (l cap : K) : t.cappedAt l cap = s.cappedAt l cap := by
  unfold Spring.cappedAt
  rw [hst.displacementAt]

/-- A change of the strain is not seen. -/
theorem congr (hst : Renamed σ τ s t) (hs : s' = { s with strain := s'.strain })
    (ht : t' = { t with strain := t'.strain }) : Renamed σ τ s' t' := by
  rw [hs, ht]
  exact { hst with }

theorem relaxed (hst : Renamed σ τ s t) (a b : Point K) (cap : K) :
    Primed σ τ (s.relaxed a b cap) (t.relaxed a b cap) :=
  ⟨hst.congr rfl rfl, hst.cappedAt _ cap⟩

end Renamed

theorem Primed.displaced (hst : Primed σ τ s t) (a b : Point K) (h cap : K) :
    Agree (Shifted σ τ) (s.displaced a b h cap) (t.displaced a b h cap) := by
  unfold Spring.displaced
  rw [hst.cappedAt, hst.previous]
  exact Agree.bind_same fun rate => ⟨hst.toRenamed.congr rfl rfl, rfl, rfl, rfl⟩

theorem Shifted.loaded (hst : Shifted σ τ s t) (a b : Point K) :
    Agree (Tense σ τ) (s.loaded a b) (t.loaded a b) := by
  have hconstants : (asNumber t.constants : Except (Failure K) _) = asNumber s.constants :=
    congrArg _ hst.constants
  unfold Spring.loaded
  rw [hconstants]
  split
  · refine ⟨hst.toRenamed.congr rfl rfl, ?_⟩
    simp only [hst.displacement, hst.previous, hst.rate]
  · refine Agree.bind_same fun c => ⟨hst.toRenamed.congr rfl rfl, ?_⟩
    simp only [hst.displacement, hst.previous, hst.rate]

theorem Primed.strained (hst : Primed σ τ s t) (a b : Point K) (h : K) (cap : Option K) :
    Agree (Tense σ τ) ((asNumber cap).bind (s.strained a b h))
      ((asNumber cap).bind (t.strained a b h)) :=
  Agree.bind_same fun cap => (hst.displaced a b h cap).bind fun _ _ _ _ hst => hst.loaded a b

theorem of_displaced_eq_error {e : Failure K} (he : s.displaced a b h cap = .error e) :
    Scalar.isZero h ∧ e = .divisionByZero := by
  have hdivide : ∃ x, divide x h = .error e := by
    rcases bind_eq_error_iff.1 he with he | ⟨_, -, he⟩
    · exact ⟨_, he⟩
    · cases he
  obtain ⟨x, hx⟩ := hdivide
  unfold divide at hx
  split at hx
  · next hzero => exact ⟨hzero, (Except.error.inj hx).symm⟩
  · cases hx

theorem of_loaded_eq_error {e : Failure K} (he : s.loaded a b = .error e) : e = .notANumber := by
  unfold loaded at he
  split at he
  · cases he
  · rcases bind_eq_error_iff.1 he with he | ⟨_, -, he⟩
    · exact (asNumber_eq_error_iff.1 he).2
    · cases he

/-- Springs that are strained fail for one reason, all of them. -/
theorem exists_failure_strained (h : K) (cap : Option K) :
    ∃ e, ∀ (s : Spring K) a b e', (asNumber cap).bind (s.strained a b h) = .error e' → e' = e := by
  refine ⟨if cap.isSome ∧ Scalar.isZero h then .divisionByZero else .notANumber,
    fun s a b e' he => ?_⟩
  rcases bind_eq_error_iff.1 he with he | ⟨l, hl, he⟩
  · obtain ⟨hnone, rfl⟩ := asNumber_eq_error_iff.1 he
    simp [hnone]
  rcases bind_eq_error_iff.1 he with he | ⟨s', hs', he⟩
  · obtain ⟨hzero, rfl⟩ := of_displaced_eq_error he
    simp [asNumber_eq_ok_iff.1 hl, hzero]
  · obtain ⟨_, hdivide, -⟩ := displaced_eq_ok_iff.1 hs'
    have hzero : ¬ Scalar.isZero h := fun hzero => by
      rw [divide, if_pos hzero] at hdivide
      cases hdivide
    simp [of_loaded_eq_error he, hzero]

namespace Tense

theorem pull (hst : Tense σ τ s t) : t.pull = s.pull := by
  unfold Spring.pull
  rw [hst.strain, hst.kind, hst.atRailEnd, hst.railDirection]

/-- It pulls a node as the spring does, as long as `σ` tells the node from the ends. -/
theorem forceAt (hst : Tense σ τ s t) (hi : ∀ j, some j ∈ s.endpoints → σ j = σ i → j = i) :
    t.forceAt (some (σ i)) = s.forceAt (some i) := by
  have hkey : ∀ k, (∀ j, k = some j → some j ∈ s.endpoints) →
      (some (σ i) = k.map σ ↔ some i = k) := fun k hk => by
    cases k with
    | none => simp
    | some j =>
      simp only [Option.map_some, Option.some.injEq]
      exact ⟨fun e => (hi j (hk j rfl) e.symm).symm, congrArg σ⟩
  have hb : some (σ i) = t.b ↔ some i = s.b := by
    rw [hst.b]
    exact hkey s.b fun j hj => by cases ha : s.a <;> simp [endpoints, ha, hj]
  have ha : some (σ i) = t.a.key ↔ some i = s.a.key := by
    have hmap : t.a.key = s.a.key.map σ := by
      rw [hst.a]
      cases s.a <;> rfl
    rw [hmap]
    exact hkey s.a.key fun j hj => by cases ha : s.a <;> simp_all [endpoints, Anchor.key]
  simp only [Spring.forceAt, hst.pull, hb, ha]

end Tense

end Spring

/-- The same body under another id. -/
structure Body.Renamed (σ : Id → Id) (b c : Body K) : Prop where
  id : c.id = σ b.id
  position : c.position = b.position
  velocity : c.velocity = b.velocity

namespace Motion

/-- The bodies correspond under other ids, and the springs in the way that `R` says. -/
structure Matches (σ : Id → Id) (R : Spring K → Spring K → Prop) (m m' : Motion K) : Prop where
  bodies : Matched (Body.Renamed σ) m.bodies m'.bodies
  springs : Matched R m.springs m'.springs

section

variable {m m' u u' : Motion K} {R Q : Spring K → Spring K → Prop} {s t : Spring K}
  {f : Spring K → Point K → Point K → Except (Failure K) (Spring K)}

theorem Matches.mono (h : m.Matches σ R m') (hR : ∀ s t, R s t → Q s t) : m.Matches σ Q m' := by
  obtain ⟨l, hl, hperm⟩ := h.springs
  exact ⟨h.bodies, l, hl.imp hR, hperm⟩

theorem Matches.position_eq (h : m.Matches σ R m') (hm : m.Joined) (hm' : m'.Joined) {b : Body K}
    (hb : b ∈ m.bodies) : m'.position (some (σ b.id)) = m.position (some b.id) := by
  obtain ⟨c, hc, hbc⟩ := h.bodies.exists_mem hb
  rw [hm.position_eq hb, ← hbc.id, hm'.position_eq hc, hbc.position]

variable [Scalar K]

/-- Springs that correspond have their ends in the same places. -/
theorem Matches.ends_eq (h : m.Matches σ R m') (hm : m.Joined) (hm' : m'.Joined)
    (hs : s ∈ m.springs) (hst : s.Renamed σ τ t) : m'.ends t = m.ends s := by
  have hposition : ∀ k ∈ s.endpoints, m'.position (k.map σ) = m.position k := fun k hk => by
    obtain ⟨b, hb, rfl⟩ := hm.ends s hs k hk
    exact h.position_eq hm hm' hb
  have hb : m'.position t.b = m.position s.b := by
    rw [hst.b]
    exact hposition s.b (by cases ha : s.a <;> simp [Spring.endpoints, ha])
  cases ha : s.a with
  | point p =>
    have ht : t.a = .point p := by rw [hst.a, ha]; rfl
    simp only [ends, ha, ht, hb]
  | node i =>
    have ht : t.a = .node (σ i) := by rw [hst.a, ha]; rfl
    have hi : m'.position (some (σ i)) = m.position (some i) :=
      hposition (some i) (by simp [Spring.endpoints, ha])
    simp only [ends, ha, ht, hb, hi]

/-- Springs that correspond see the same. In which order they fail makes no difference if it is for
one reason. -/
theorem Matches.look (h : m.Matches σ R m') (hm : m.Joined) (hm' : m'.Joined)
    (hone : ∃ e, ∀ s a b e', f s a b = .error e' → e' = e) (hR : ∀ s t, R s t → s.Renamed σ τ t)
    (hQ : ∀ s t a b, R s t → Agree Q (f s a b) (f t a b)) :
    Agree (Matches σ Q) (m.look f) (m'.look f) := by
  obtain ⟨e₀, hone⟩ := hone
  have hagree : ∀ s ∈ m.springs, ∀ t, R s t →
      Agree Q ((m.ends s).bind fun p => f s p.1 p.2) ((m'.ends t).bind fun p => f t p.1 p.2) := by
    intro s hs t hst
    rw [h.ends_eq hm hm' hs (hR s t hst)]
    exact Agree.bind_same fun p => hQ s t _ _ hst
  cases hl : m.look f with
  | error e =>
    obtain ⟨s, hs, p, hp, hfail⟩ := hm.look_error hl
    obtain ⟨t, ht, hst⟩ := h.springs.exists_mem hs
    have hfail' := (hagree s hs t hst).eq_error (by rw [hp]; exact hfail)
    cases hl' : m'.look f with
    | error e' =>
      obtain ⟨_, -, _, -, hfail'⟩ := hm'.look_error hl'
      exact (hone _ _ _ _ hfail').trans (hone _ _ _ _ hfail).symm
    | ok u' =>
      -- the spring that corresponds to the one that failed has failed, too
      have hlooked := List.Forall₂.flip (look_eq_ok_iff.1 hl').2
      obtain ⟨_, -, p, hp, hok⟩ := exists_mem_of_forall₂ hlooked ht
      rw [hp] at hfail'
      cases hok.symm.trans hfail'
  | ok u =>
    obtain ⟨hbodies, hsprings⟩ := look_eq_ok_iff.1 hl
    have hboth : ∀ s ∈ m.springs, ∀ t s', R s t →
        (∃ p, m.ends s = .ok p ∧ f s p.1 p.2 = .ok s') →
        ∃ t', (m'.ends t).bind (fun p => f t p.1 p.2) = .ok t' ∧ Q s' t' :=
      fun s hs t s' hst hs' => (hagree s hs t hst).exists_ok (bind_eq_ok_iff.2 hs')
    obtain ⟨u', hl'⟩ : ∃ u', m'.look f = .ok u' := by
      refine exists_look fun t ht => ?_
      obtain ⟨s, hs, hst⟩ := h.springs.exists_mem_right ht
      obtain ⟨s', -, hs'⟩ := exists_mem_of_forall₂ (List.Forall₂.flip hsprings) hs
      obtain ⟨t', ht', -⟩ := hboth s hs t s' hst hs'
      obtain ⟨p, hp, ht'⟩ := bind_eq_ok_iff.1 ht'
      exact ⟨p, hp, t', ht'⟩
    obtain ⟨hbodies', hsprings'⟩ := look_eq_ok_iff.1 hl'
    rw [hl']
    refine ⟨by rw [hbodies, hbodies']; exact h.bodies, h.springs.change hsprings hsprings' ?_⟩
    intro s hs t s' t' hst hs' ht'
    obtain ⟨t'', ht'', hst'⟩ := hboth s hs t s' hst hs'
    cases (bind_eq_ok_iff.2 ht').symm.trans ht''
    exact hst'

end

/-! ### Frames -/

variable {m m' : Motion ℝ} {c : Stepping ℝ} {friction h : ℝ}

theorem Matches.relax (hmm : m.Matches σ (Spring.Renamed σ τ) m') (hm : m.Joined)
    (hm' : m'.Joined) (cap : Option ℝ) :
    Agree (Matches σ (Spring.Primed σ τ))
      (m.look fun s a b => (asNumber cap).map (s.relaxed a b))
      (m'.look fun s a b => (asNumber cap).map (s.relaxed a b)) := by
  refine hmm.look hm hm' ⟨.notANumber, fun s a b e he => ?_⟩ (fun _ _ h => h) fun s t a b hst => ?_
  · cases cap <;> cases he
    rfl
  · cases cap with
    | none => exact rfl
    | some l => exact hst.relaxed a b l

/-- In sums of forces the order makes no difference. -/
theorem Matches.force_eq (hmm : m.Matches σ (Spring.Tense σ τ) m') (hm : m.Joined)
    (hm' : m'.Joined) {b b' : Body ℝ} (hb : b ∈ m.bodies) (hbb : b.Renamed σ b') :
    m'.force friction b' = m.force friction b := by
  have hperm : (m.bodies.map fun b => σ b.id).Perm (m'.bodies.map Body.id) :=
    hmm.bodies.perm_map fun _ _ _ h => h.id
  have hinj : ∀ a ∈ m.bodies, σ a.id = σ b.id → a.id = b.id := fun a ha e => by
    rw [List.inj_on_of_nodup_map (hperm.nodup_iff.2 hm'.nodup) ha hb e]
  have hsum : (m.springs.map (·.forceAt (some b.id))).Perm
      (m'.springs.map (·.forceAt (some b'.id))) := by
    refine hmm.springs.perm_map fun s hs t hst => ?_
    rw [hbb.id]
    refine hst.forceAt fun j hj e => ?_
    obtain ⟨a, ha, haj⟩ := hm.ends s hs _ hj
    cases haj
    exact hinj a ha e
  rw [Motion.force_eq, Motion.force_eq, hbb.velocity, hsum.sum_eq]

theorem Matches.move (hmm : m.Matches σ (Spring.Tense σ τ) m') (hm : m.Joined) (hm' : m'.Joined)
    (friction h : ℝ) :
    (m.move friction h).Matches σ (Spring.Tense σ τ) (m'.move friction h) := by
  refine ⟨hmm.bodies.map fun b hb b' hbb => ?_, hmm.springs⟩
  have hforce : m'.force friction b' = m.force friction b := hmm.force_eq hm hm' hb hbb
  exact ⟨hbb.id, by rw [hforce, hbb.position, hbb.velocity], by rw [hforce, hbb.velocity]⟩

theorem Matches.substep (hmm : m.Matches σ (Spring.Primed σ τ) m') (hm : m.Joined)
    (hm' : m'.Joined) :
    Agree (Matches σ (Spring.Primed σ τ)) (m.substep c h) (m'.substep c h) := by
  have hstrain := Scene.strainOnly_strained h c.lengthCap
  refine (hmm.look hm hm' (Spring.exists_failure_strained h _) (fun _ _ h => h.toRenamed)
    fun s t a b hst => hst.strained a b h c.lengthCap).bind fun u u' hu hu' huu => ?_
  have hempty : u'.bodies.isEmpty = u.bodies.isEmpty := by
    rw [Bool.eq_iff_iff, List.isEmpty_iff, List.isEmpty_iff, huu.bodies.nil_iff]
  rw [hempty]
  split
  · exact huu.mono fun _ _ => Spring.Tense.primed
  · cases asNumber c.friction with
    | error e => exact rfl
    | ok friction =>
      exact (huu.move (hm.look hstrain hu) (hm'.look hstrain hu') friction h).mono
        fun _ _ => Spring.Tense.primed

theorem Matches.substeps (hmm : m.Matches σ (Spring.Primed σ τ) m') (hm : m.Joined)
    (hm' : m'.Joined) (n : Nat) :
    Agree (Matches σ (Spring.Primed σ τ)) (m.substeps c h n) (m'.substeps c h n) := by
  induction n generalizing m m' with
  | zero => exact hmm
  | succ n ih =>
    exact (hmm.substep hm hm').bind fun u u' hu hu' huu =>
      ih huu (hm.substep hu) (hm'.substep hu')

theorem Matches.sweep (hmm : m.Matches σ (Spring.Primed σ τ) m') :
    m.sweep.Matches σ (Spring.Primed σ τ) m'.sweep :=
  ⟨hmm.bodies, hmm.springs.filter fun s t hst => by rw [hst.expired]⟩

theorem Matches.advance (hmm : m.Matches σ (Spring.Renamed σ τ) m') (hm : m.Joined)
    (hm' : m'.Joined) (dt : ℝ) :
    Agree (Matches σ (Spring.Renamed σ τ)) (m.advance c dt) (m'.advance c dt) := by
  have hrelax := Scene.strainOnly_relaxed c.lengthCap
  unfold Motion.advance
  split
  · exact hmm
  refine Agree.bind_same fun steps => Agree.bind_same fun h => ?_
  refine (hmm.relax hm hm' _).bind fun u u' hu hu' huu => ?_
  refine Agree.bind_same fun n => ?_
  have hsteps := huu.substeps (c := c) (h := h) (hm.look hrelax hu) (hm'.look hrelax hu') n
  exact hsteps.map fun v v' hvv => hvv.sweep.mono fun _ _ h => h.toRenamed

end Motion

namespace Scene

variable {w t : Scene ℝ}

/-- Sound scenes that are one scene under other ids and in another order. -/
structure Matches (σ : Id → Id) (R : Spring ℝ → Spring ℝ → Prop) (w t : Scene ℝ) : Prop where
  left : w.Sound
  right : t.Sound
  motion : w.motion.Matches σ R t.motion

/-- How springs are strained is not seen. -/
theorem Matches.idle {u v : Scene ℝ} (h : Matches σ (Spring.Renamed σ τ) w t) (hu : Idle w u)
    (hv : Idle t v) : Matches σ (Spring.Renamed σ τ) u v := by
  refine ⟨h.left.alike hu.strained.alike, h.right.alike hv.strained.alike, ?_, ?_⟩
  · rw [hu.bodies, hv.bodies]
    exact h.motion.bodies
  · exact h.motion.springs.change hu.members hv.members fun s _ t s' t' hst hs ht =>
      hst.congr hs ht

theorem Matches.renamed (h : Matches σ (Spring.Primed σ τ) w t) :
    Matches σ (Spring.Renamed σ τ) w t :=
  ⟨h.left, h.right, h.motion.mono fun _ _ h => h.toRenamed⟩

/-- Steps on which the motions of the scenes agree, and that fail without moving anything. -/
theorem Matches.abreast {x y : Act ℝ (Scene ℝ) Unit} {m m' : Except (Failure ℝ) (Motion ℝ)}
    (h : Matches σ (Spring.Renamed σ τ) w t)
    (hagree : Agree (Motion.Matches σ (Spring.Primed σ τ)) m m')
    (hx : x.wp (fun o u => o.map (fun _ => u.motion) = m ∧ Strained w u ∧
      (o ≠ .ok () → Idle w u)) w)
    (hy : y.wp (fun o v => o.map (fun _ => v.motion) = m' ∧ Strained t v ∧
      (o ≠ .ok () → Idle t v)) t) :
    Abreast (Matches σ (Spring.Renamed σ τ)) (fun _ _ => Matches σ (Spring.Primed σ τ)) x y
      w t := by
  obtain ⟨rfl, hu, huidle⟩ := hx
  obtain ⟨rfl, hv, hvidle⟩ := hy
  unfold Abreast
  cases hxo : (x w).outcome <;> cases hyo : (y t).outcome <;> rw [hxo, hyo] at hagree
  · exact h.idle (huidle (hxo ▸ nofun)) (hvidle (hyo ▸ nofun))
  · exact hagree.elim
  · exact hagree.elim
  · exact ⟨h.left.alike hu.alike, h.right.alike hv.alike, hagree⟩

theorem Matches.relax (h : Matches σ (Spring.Renamed σ τ) w t) (cap : Option ℝ) :
    Abreast (Matches σ (Spring.Renamed σ τ)) (fun _ _ => Matches σ (Spring.Primed σ τ))
      (Scene.relax cap) (Scene.relax cap) w t := by
  have hrelax : ∀ {v : Scene ℝ}, v.Sound → (Scene.relax cap).wp (fun o u =>
      o.map (fun _ => u.motion) = v.motion.look (fun s a b => (asNumber cap).map (s.relaxed a b)) ∧
        Strained v u ∧ (o ≠ .ok () → Idle v u)) v := fun hv =>
    ⟨relax_motion hv cap, relax_strained _ cap, fun _ => relax_idle _ cap⟩
  exact h.abreast (h.motion.relax (joined_motion h.left) (joined_motion h.right) cap)
    (hrelax h.left) (hrelax h.right)

theorem Matches.substep (h : Matches σ (Spring.Primed σ τ) w t) (c : Stepping ℝ) (dh : ℝ) :
    Abreast (Matches σ (Spring.Renamed σ τ)) (fun _ _ => Matches σ (Spring.Primed σ τ))
      (Scene.substep c dh) (Scene.substep c dh) w t := by
  have hsubstep : ∀ {v : Scene ℝ}, v.Sound → (Scene.substep c dh).wp (fun o u =>
      o.map (fun _ => u.motion) = v.motion.substep c dh ∧ Strained v u ∧
        (o ≠ .ok () → Idle v u)) v := fun hv =>
    ⟨substep_motion hv c dh, substep_strained _ c dh, substep_idle _ c dh⟩
  exact h.renamed.abreast (h.motion.substep (joined_motion h.left) (joined_motion h.right))
    (hsubstep h.left) (hsubstep h.right)

theorem Matches.sweep (h : Matches σ (Spring.Primed σ τ) w t) :
    Keep (Matches σ (Spring.Renamed σ τ)) Scene.sweep Scene.sweep w t := by
  obtain ⟨hwo, hwm⟩ := sweep_motion h.left
  obtain ⟨hto, htm⟩ := sweep_motion h.right
  have hw : (Scene.sweep w).state.Sound := (sweep_spec h.left).2.1.sound
  have ht : (Scene.sweep t).state.Sound := (sweep_spec h.right).2.1.sound
  unfold Keep Abreast
  rw [hwo, hto]
  refine ⟨hw, ht, ?_⟩
  rw [hwm, htm]
  exact h.motion.sweep.mono fun _ _ h => h.toRenamed

/-- Wherever the frames end, they end alike. -/
theorem Matches.advance (h : Matches σ (Spring.Renamed σ τ) w t)
    (hc : t.graph.config = w.graph.config) (dt : ℝ) :
    Keep (Matches σ (Spring.Renamed σ τ)) (Scene.advance dt) (Scene.advance dt) w t := by
  unfold Scene.advance
  refine abreast_ite Iff.rfl h ?_
  rw [abreast_bind_read, hc]
  refine abreast_bind_ofExcept h _ fun steps _ => abreast_bind_ofExcept h _ fun dh _ => ?_
  refine (h.relax _).bind fun _ _ u v hu => abreast_bind_ofExcept hu.renamed _ fun n _ => ?_
  refine (abreast_times hu (fun _ _ h => h.substep _ dh) n).bind fun _ _ u v hu => ?_
  exact hu.sweep.bind fun _ _ _ _ h => h

/-- Where the motions of two scenes agree on a frame, the scenes do. -/
theorem agree_advance {P : Motion ℝ → Motion ℝ → Prop} {dt : ℝ} (hw : w.Sound) (ht : t.Sound)
    (h : Agree P (w.motion.advance w.graph.config.stepping dt)
      (t.motion.advance t.graph.config.stepping dt)) :
    (advance dt t).outcome = (advance dt w).outcome ∧
      ((advance dt w).outcome = .ok () →
        P (advance dt w).state.motion (advance dt t).state.motion) := by
  have hmw : (advance dt w).outcome.map _ = _ := advance_motion hw dt
  have hmt : (advance dt t).outcome.map _ = _ := advance_motion ht dt
  rw [← hmw, ← hmt] at h
  cases how : (advance dt w).outcome with
  | error e =>
    cases hot : (advance dt t).outcome with
    | error e' =>
      rw [how, hot] at h
      cases h
      exact ⟨rfl, fun e => by cases e⟩
    | ok _ =>
      rw [how, hot] at h
      exact h.elim
  | ok _ =>
    cases hot : (advance dt t).outcome with
    | error e =>
      rw [how, hot] at h
      exact h.elim
    | ok _ =>
      rw [how, hot] at h
      exact ⟨rfl, fun _ => h⟩

/-- A frame does the same to sound scenes that are one scene under other ids in another order. -/
theorem advance_renamed (hw : w.Sound) (ht : t.Sound) (hc : t.graph.config = w.graph.config)
    (h : w.motion.Matches σ (Spring.Renamed σ τ) t.motion) (dt : ℝ) :
    (advance dt t).outcome = (advance dt w).outcome ∧
      (advance dt w).state.motion.Matches σ (Spring.Renamed σ τ) (advance dt t).state.motion := by
  have hagree : Agree (Motion.Matches σ (Spring.Renamed σ τ))
      (w.motion.advance w.graph.config.stepping dt)
      (t.motion.advance t.graph.config.stepping dt) := by
    rw [hc]
    exact h.advance (joined_motion hw) (joined_motion ht) dt
  have hmatches : Matches σ (Spring.Renamed σ τ) w t := ⟨hw, ht, h⟩
  exact ⟨(agree_advance hw ht hagree).1, (hmatches.advance hc dt).state.motion⟩

end Scene

namespace Bench

/-- After every two runs that have led to one scene under other ids and in another order, a frame of
any length fails on both scenes, for one reason, or on neither. It leaves nodes that correspond in
the same places, with the same velocities, and springs that correspond. -/
theorem renamed_after_run (c c' : Config ℝ) (springs springs' : Arena (Spring ℝ))
    (quantities quantities' : Arena (Quantity ℝ)) (ops ops' : List (Op ℝ)) (σ τ : Id → Id)
    (dt : ℝ) :
    let w := (after ops (empty c springs quantities)).toScene
    let t := (after ops' (empty c' springs' quantities')).toScene
    t.graph.config = w.graph.config → w.motion.Matches σ (Spring.Renamed σ τ) t.motion →
      (Scene.advance dt t).outcome = (Scene.advance dt w).outcome ∧
        (Scene.advance dt w).state.motion.Matches σ (Spring.Renamed σ τ)
          (Scene.advance dt t).state.motion := by
  intro w t hc h
  have hw : w.Sound := (sound_after c springs quantities ops).scene
  have ht : t.Sound := (sound_after c' springs' quantities' ops').scene
  exact Scene.advance_renamed hw ht hc h dt

/-- A spring between two nodes that is to be of a given length. -/
noncomputable def rod (i a b : Id) (l : ℝ) : Spring ℝ :=
  { id := some i, kind := .distance, a := .node a, b := some b,
    constants := some (Constants.standard .distance), lower := some (.real l),
    upper := some (.real l), temporary := false, expired := false, railDirection := Point.zero,
    atRailEnd := false, strain := Strain.none }

/-- Nodes at two places, and springs between them, one of length 2 and one of length 3. -/
noncomputable def rodsRun (p q : Point ℝ) (l m : ℝ) : List (Op ℝ) :=
  let tie (a b : Id) (l : ℝ) : Op ℝ :=
    .sketch (.scene (.tie (some a) (some b) (some (.real l)) (some (.real l))))
  [.sketch (.scene (.addNode (.ofPoint p))), .sketch (.scene (.addNode (.ofPoint q))),
    tie 0 1 l, tie 1 0 m]

theorem renamed_rods :
    let w := (after (rodsRun ⟨0, 0⟩ ⟨1, 0⟩ 2 3) (empty default {} {} : Bench ℝ)).toScene
    let t := (after (rodsRun ⟨1, 0⟩ ⟨0, 0⟩ 3 2) (empty default {} {} : Bench ℝ)).toScene
    let swap : Id → Id := fun i => 1 - i
    t.graph.config = w.graph.config ∧ w.motion.Matches swap (Spring.Renamed swap swap) t.motion ∧
      (Scene.advance 1 w).state.motion.Matches swap (Spring.Renamed swap swap)
        (Scene.advance 1 t).state.motion := by
  intro w t swap
  have hwm : w.motion = ⟨[rod 0 0 1 2, rod 1 1 0 3],
      [⟨0, ⟨0, 0⟩, Point.zero⟩, ⟨1, ⟨1, 0⟩, Point.zero⟩]⟩ := rfl
  have htm : t.motion = ⟨[rod 0 0 1 3, rod 1 1 0 2],
      [⟨0, ⟨1, 0⟩, Point.zero⟩, ⟨1, ⟨0, 0⟩, Point.zero⟩]⟩ := rfl
  have hrod : ∀ i a b l, Spring.Renamed swap swap (rod i a b l) (rod (1 - i) (1 - a) (1 - b) l) :=
    fun _ _ _ _ => ⟨rfl, rfl, rfl, rfl, rfl, rfl, rfl, rfl, rfl, rfl⟩
  have hmatches : w.motion.Matches swap (Spring.Renamed swap swap) t.motion := by
    rw [hwm, htm]
    constructor
    case bodies =>
      exact ⟨[⟨1, ⟨0, 0⟩, Point.zero⟩, ⟨0, ⟨1, 0⟩, Point.zero⟩],
        .cons ⟨rfl, rfl, rfl⟩ (.cons ⟨rfl, rfl, rfl⟩ .nil), .swap ..⟩
    case springs =>
      exact ⟨[rod 1 1 0 2, rod 0 0 1 3], .cons (hrod 0 0 1 2) (.cons (hrod 1 1 0 3) .nil),
        .swap ..⟩
  exact ⟨rfl, hmatches, (renamed_after_run default default {} {} {} {} (rodsRun ⟨0, 0⟩ ⟨1, 0⟩ 2 3)
    (rodsRun ⟨1, 0⟩ ⟨0, 0⟩ 3 2) swap swap 1 rfl hmatches).2⟩

end Bench

end Linkage
