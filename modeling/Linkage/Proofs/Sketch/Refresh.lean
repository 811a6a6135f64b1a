import Linkage.Proofs.Sketch.Prune

/-!
# Refreshing

`Sketch.worth` is what a bound comes to on a sketch as it stands, and `Sketch.Keeps` how an owned
spring is set by it. All springs are set as if at once: bounds are read off quantities and nodes,
which no setting of a spring changes (`forEach_refreshOne`), so the order of the quantities does not
matter and a second refresh finds every spring as it has to be.
-/

namespace Linkage.Sketch

open Act

variable {K : Type} [Scalar K] {w t u : Sketch K} {k : Key} {r : Ref} {i : Id}
  {b : Option (Limit K)} {s s' s'' : Spring K}

/-! ### Bounds -/

/-- A number as it is, a reference by what is read there; nothing where there is no bound. -/
def worth (w : Sketch K) : Option (Limit K) → Except (Failure K) (Option (Number K))
  | none => .ok none
  | some (.literal n) => .ok (some n)
  | some (.reference i) =>
    match w.quantityRef? (some i) with
    | some r => ((w.quantity r).read w.toScene).map fun x => some (.real x)
    | none => .ok none

theorem valueOf_worth (w : Sketch K) (b : Option (Limit K)) :
    (valueOf b).wp (fun o t => o = w.worth b ∧ t = w) w := by
  cases b with
  | none => exact ⟨rfl, rfl⟩
  | some l =>
    cases l with
    | literal n => exact ⟨rfl, rfl⟩
    | reference j =>
      unfold valueOf worth
      rw [wp_bind, wp_read, next_ok]
      cases hr : w.quantityRef? (some j) with
      | none => exact ⟨by simp only [hr]; rfl, rfl⟩
      | some r =>
        simp only [hr, wp_bind, wp_ofExcept]
        cases (w.quantity r).read w.toScene <;> exact ⟨rfl, rfl⟩

theorem exists_read (h : w.Sound) (ht : w.Tidy) (hr : r ∈ w.declared) :
    ∃ x, (w.quantity r).read w.toScene = .ok x :=
  Quantity.exists_read (h.proper r hr) (ht r hr).1 (ht r hr).2

/-- On a tidy sketch every bound of a declared quantity comes to something. -/
theorem exists_worth (h : w.Sound) (ht : w.Tidy) (b : Option (Limit K)) :
    ∃ x, w.worth b = .ok x := by
  unfold worth
  split
  · exact ⟨_, rfl⟩
  · exact ⟨_, rfl⟩
  · split
    · next r hr =>
      obtain ⟨x, hx⟩ := exists_read h ht (of_quantityRef?_eq_some hr).1
      exact ⟨_, by rw [hx]; rfl⟩
    · exact ⟨_, rfl⟩

/-! ### How a spring is set -/

/-- `s'` is the spring `s` of the id `i` as its owner sets it on the sketch as it stands. -/
def Keeps (w : Sketch K) (r : Ref) (i : Id) (s s' : Spring K) : Prop :=
  ∃ lo hi, w.worth (w.quantity r).lower = .ok lo ∧ w.worth (w.quantity r).upper = .ok hi ∧
    (w.quantity r).Keeps w.toScene lo hi w.clamped i s s'

/-- The same quantities are named, and read the same nodes at the same places. -/
structure Reads (w t : Sketch K) : Prop where
  named : ∀ k, t.quantityRef? k = w.quantityRef? k
  quantity : ∀ r ∈ w.declared, t.quantity r = w.quantity r
  places : ∀ k, (t.node? k).map Node.position = (w.node? k).map Node.position
  clamped : t.clamped = w.clamped

namespace Reads

theorem worth (h : Reads w t) (b : Option (Limit K)) : t.worth b = w.worth b := by
  unfold Sketch.worth
  split
  · rfl
  · rfl
  · rw [h.named]
    split
    · next r hr =>
      rw [h.quantity r (of_quantityRef?_eq_some hr).1, Quantity.read_congr h.places]
    · rfl

theorem keeps (h : Reads w t) (hr : r ∈ w.declared) (hk : w.Keeps r i s s') :
    t.Keeps r i s s' := by
  obtain ⟨lo, hi, hlo, hhi, hk⟩ := hk
  refine ⟨lo, hi, ?_, ?_, ?_⟩
  · rw [h.quantity r hr, h.worth, hlo]
  · rw [h.quantity r hr, h.worth, hhi]
  · rw [h.quantity r hr, h.clamped]
    unfold Quantity.Keeps at hk ⊢
    simp only [Quantity.position_congr h.places]
    exact hk

omit [Scalar K] in
/-- The scene may be another one as long as its nodes are where they were. -/
theorem withScene {v : Scene K} (hp : ∀ k, (v.node? k).map Node.position =
    (w.node? k).map Node.position) (hc : v.graph.config = w.graph.config) :
    Reads w (w.withScene v) :=
  ⟨fun _ => rfl, fun _ _ => rfl, hp, congrArg Config.railsEnd hc⟩

end Reads

/-- There is one way to set a spring. -/
theorem Keeps.unique (hc : ((w.quantity r).captives.map Prod.snd).Nodup) (hk : w.Keeps r i s s')
    (hk' : w.Keeps r i s s'') : s' = s'' := by
  obtain ⟨lo, hi₁, hlo, hhi, hk⟩ := hk
  obtain ⟨lo', hi₁', hlo', hhi', hk'⟩ := hk'
  cases hlo.symm.trans hlo'
  cases hhi.symm.trans hhi'
  unfold Quantity.Keeps at hk hk'
  cases hkind : (w.quantity r).kind with
  | distance =>
    rw [hkind] at hk hk'
    rw [hk, hk']
  | angle p =>
    rw [hkind] at hk hk'
    obtain ⟨a, b, c, ha, hb, hc, rfl⟩ := hk
    obtain ⟨a', b', c', ha', hb', hc', rfl⟩ := hk'
    cases ha.symm.trans ha'
    cases hb.symm.trans hb'
    cases hc.symm.trans hc'
    rfl
  | rail =>
    rw [hkind] at hk hk'
    obtain ⟨a, b, c, p, ha, hb, hmem, hp, rfl⟩ := hk
    obtain ⟨a', b', c', p', ha', hb', hmem', hp', rfl⟩ := hk'
    cases ha.symm.trans ha'
    cases hb.symm.trans hb'
    cases List.inj_on_of_nodup_map hc hmem hmem' rfl
    cases hp.symm.trans hp'
    rfl
  | unknown =>
    rw [hkind] at hk
    exact hk.elim
  | lacking name nodes =>
    rw [hkind] at hk
    exact hk.elim

/-- A spring that is set as it has to be stays so. -/
theorem Keeps.again (h : w.Keeps r i s s') : w.Keeps r i s' s' := by
  obtain ⟨lo, hi, hlo, hhi, hk⟩ := h
  refine ⟨lo, hi, hlo, hhi, ?_⟩
  unfold Quantity.Keeps at hk ⊢
  split at hk
  · rw [hk]
    rfl
  · obtain ⟨a, b, c, ha, hb, hc, rfl⟩ := hk
    exact ⟨a, b, c, ha, hb, hc, rfl⟩
  · obtain ⟨a, b, c, p, ha, hb, hc, hp, rfl⟩ := hk
    exact ⟨a, b, c, p, ha, hb, hc, hp, rfl⟩
  · exact hk
  · exact hk

/-! ### All springs are set -/

/-- The springs of a quantity are set if its bounds come to something, and nothing happens if one
of them does not. -/
theorem refreshOne_cases (h : w.Sound) (hr : r ∈ w.declared) (ht : w.TidyAt r) :
    (refreshOne r).wp
      (fun o t => match o with
        | .error _ => t = w ∧ ((∃ e, w.worth (w.quantity r).lower = .error e) ∨
            ∃ e, w.worth (w.quantity r).upper = .error e)
        | .ok _ => ∃ v, Scene.Reset w.toScene v (w.quantity r).springIds (w.Keeps r) ∧
            t = w.withScene v) w := by
  unfold refreshOne
  rw [wp_bind, wp_read, next_ok, wp_bind]
  refine (valueOf_worth w _).mono fun o t => ?_
  rintro ⟨rfl, rfl⟩
  cases hlo : t.worth (t.quantity r).lower with
  | error e => exact ⟨rfl, .inl ⟨e, rfl⟩⟩
  | ok lo =>
    rw [next_ok, wp_bind]
    refine (valueOf_worth t _).mono fun o t => ?_
    rintro ⟨rfl, rfl⟩
    cases hhi : t.worth (t.quantity r).upper with
    | error e => exact ⟨rfl, .inr ⟨e, rfl⟩⟩
    | ok hi =>
      rw [next_ok, wp_onScene]
      refine (Quantity.impose_spec h.scene (h.proper r hr) (h.springIds_nodup r hr) (ht hr).1
        (ht hr).2 (fun i hi => h.made r i ⟨hr, hi⟩) lo hi t.clamped).mono fun o v hv => ?_
      obtain ⟨rfl, hv⟩ := hv
      exact ⟨v, hv.mono fun i _ s s' hk => ⟨lo, hi, hlo, hhi, hk⟩, rfl⟩

/-- The springs of one quantity are set, and nothing else happens. -/
theorem refreshOne_spec (h : w.Sound) (ht : w.Tidy) (hr : r ∈ w.declared) :
    (refreshOne r).wp
      (fun o t => o = .ok () ∧ ∃ v,
        Scene.Reset w.toScene v (w.quantity r).springIds (w.Keeps r) ∧ t = w.withScene v) w := by
  obtain ⟨lo, hlo⟩ := exists_worth h ht (w.quantity r).lower
  obtain ⟨hi, hhi⟩ := exists_worth h ht (w.quantity r).upper
  refine (refreshOne_cases h hr (ht r)).mono fun o t => ?_
  cases o with
  | error e =>
    rintro ⟨-, ⟨e, he⟩ | ⟨e, he⟩⟩
    · cases he.symm.trans hlo
    · cases he.symm.trans hhi
  | ok _ => exact fun ht => ⟨rfl, ht⟩

/-- What is owned, in the order of the quantities. -/
def ownedIds (w : Sketch K) (rs : List Ref) : List Id :=
  rs.flatMap fun r => (w.quantity r).springIds

omit [Scalar K] in
theorem mem_ownedIds {rs : List Ref} : i ∈ w.ownedIds rs ↔ ∃ r ∈ rs, i ∈ (w.quantity r).springIds :=
  List.mem_flatMap

/-- The spring is as its owner sets it. -/
def Kept (w : Sketch K) (i : Id) (s s' : Spring K) : Prop := ∀ r, w.Owns r i → w.Keeps r i s s'

omit [Scalar K] in
theorem tidy_withScene {v : Scene K} (ht : w.Tidy) (hg : v.graph = w.graph) :
    (w.withScene v).Tidy := by
  have hnode : ∀ k, v.isNode k = w.isNode k := fun k => by
    rw [Scene.isNode, Scene.isNode, Scene.node?, Scene.node?, hg]
  intro r hr
  obtain ⟨hw, hc⟩ := ht r hr
  exact ⟨fun i hi => (hnode _).trans (hw i hi), fun c hc' => (hnode _).trans (hc c hc')⟩

/-- All owned springs are set for the nodes and quantities as they stand at the start: what has been
set before has changed neither. -/
theorem forEach_refreshOne (h : w.Sound) (ht : w.Tidy) :
    (forEach refreshOne w.declared).wp
      (fun o t => o = .ok () ∧ ∃ v,
        Scene.Reset w.toScene v (w.ownedIds w.declared) w.Kept ∧ t = w.withScene v) w := by
  refine wp_forEach_ok (I := fun done t => ∃ v,
    Scene.Reset w.toScene v (w.ownedIds done) w.Kept ∧ t = w.withScene v) ⟨_, .refl _, rfl⟩ ?_
  rintro done r rest hl t ⟨v, hv, rfl⟩
  have hr : r ∈ w.declared := by simp [hl]
  have hback : Reads (w.withScene v) w := by
    refine ⟨fun _ => rfl, fun _ _ => rfl, fun k => ?_, ?_⟩
    · show (w.node? k).map _ = (v.node? k).map _
      rw [Scene.node?, Scene.node?, hv.graph]
    · show w.graph.config.railsEnd = v.graph.config.railsEnd
      rw [hv.graph]
  have hsound : (w.withScene v).Sound :=
    (onward_withScene h ((Scene.Onward.refl h.scene).alike hv.alike)).sound
  refine (refreshOne_spec hsound (tidy_withScene ht hv.graph) hr).mono fun o t => ?_
  rintro ⟨rfl, v', hv', rfl⟩
  refine ⟨rfl, v', ?_, rfl⟩
  have hv'' : Scene.Reset v v' (w.quantity r).springIds w.Kept :=
    hv'.mono fun i hi s s' hk r' hr' => by
      rw [h.owner_unique r' r i hr' ⟨hr, hi⟩]
      exact hback.keeps hr hk
  have hids : w.ownedIds (done ++ [r]) = w.ownedIds done ++ (w.quantity r).springIds := by
    simp [ownedIds]
  rw [hids]
  refine hv.trans hv'' fun i hi hi' => ?_
  obtain ⟨r', hr', hi⟩ := mem_ownedIds.1 hi
  have hsame : r' = r := h.owner_unique r' r i ⟨by simp [hl, hr'], hi⟩ ⟨hr, hi'⟩
  have hnodup : (done ++ r :: rest).Nodup := hl ▸ h.declared_nodup
  exact List.disjoint_of_nodup_append hnodup hr' (by simp [hsame])

/-- Every owned spring is as its owner would set it. -/
def Settled (w : Sketch K) : Prop :=
  ∀ i s, w.springRef? (some i) = some s → w.Kept i (w.spring s) (w.spring s)

theorem Settled.reset (hs : w.Settled) :
    Scene.Reset w.toScene w.toScene (w.ownedIds w.declared) w.Kept :=
  ⟨.refl _, rfl, rfl, fun i _ s his => hs i s his, fun _ _ => rfl⟩

/-- There is one way to set all springs. -/
theorem reset_unique (h : w.Sound) {v v' : Scene K}
    (hv : Scene.Reset w.toScene v (w.ownedIds w.declared) w.Kept)
    (hv' : Scene.Reset w.toScene v' (w.ownedIds w.declared) w.Kept) : v = v' := by
  refine hv.unique hv' fun i hi s s' s'' hk hk' => ?_
  obtain ⟨r, hr, hri⟩ := mem_ownedIds.1 hi
  exact (hk r ⟨hr, hri⟩).unique (h.captives_nodup hr) (hk' r ⟨hr, hri⟩)

/-- On a settled sketch there is nothing to set. -/
theorem forEach_refreshOne_settled (h : w.Sound) (ht : w.Tidy) (hs : w.Settled) :
    (forEach refreshOne w.declared).wp (fun o t => o = .ok () ∧ t = w) w := by
  refine (forEach_refreshOne h ht).mono fun o t => ?_
  rintro ⟨rfl, v, hv, rfl⟩
  rw [reset_unique h hv hs.reset]
  exact ⟨rfl, rfl⟩

/-! ### The whole refresh -/

theorem refreshOne_shrunk (h : w.Sound) (hr : r ∈ w.declared) :
    (refreshOne r).wp (fun _ t => Shrunk w t ∧ t.declared = w.declared) w := by
  refine (refreshOne_alike h hr).mono fun o t => ?_
  rintro ⟨v, ⟨hv, hs⟩, rfl⟩
  exact ⟨shrunk_withScene h ((Scene.Onward.refl h.scene).alike hv) hs, rfl⟩

theorem refresh_shrunk (h : w.Sound) (dt : Option K) :
    (refresh dt).wp (fun _ t => Shrunk w t) w := by
  unfold refresh
  refine wp_bind_keep (prune_shrunk h) fun _ u hu => ?_
  rw [wp_bind, wp_read, next_ok]
  have hall : (forEach refreshOne u.declared).wp (fun _ t => Shrunk w t) u := by
    refine (wp_forEach (I := fun t => Shrunk w t ∧ t.declared = u.declared) ⟨hu, rfl⟩
      fun r hr t ht => ?_).mono fun _ _ ht => ht.1
    refine (refreshOne_shrunk ht.1.sound (ht.2 ▸ hr)).mono fun _ t' ht' => ?_
    exact ⟨ht.1.trans ht'.1, ht'.2.trans ht.2⟩
  refine wp_bind_keep hall fun _ t ht => ?_
  cases dt with
  | none => exact ht
  | some dt =>
    show (Scene.advance dt).onScene.wp _ t
    rw [wp_onScene]
    refine ((Scene.advance_spec ht.sound.scene dt).and
      (Scene.advance_spared ht.sound.scene dt)).mono fun o v hv => ?_
    exact ht.trans (shrunk_withScene ht.sound hv.1.1 hv.2)

/-- Two springs that differ in nothing but their strain. -/
def SameSetting (s s' : Spring K) : Prop := s' = { s with strain := s'.strain }

/-- `t` is `w` pruned and with every owned spring set for the places that nodes had in `w`, by the
quantities and captives that are left. -/
structure Refreshed (w t : Sketch K) : Prop where
  declared : ∀ r, r ∈ t.declared ↔ r ∈ w.declared ∧ w.Whole r
  order : t.declared.Sublist w.declared
  kept : ∀ r ∈ t.declared, ∃ springIds lower upper, t.quantity r =
    { w.quantity r with
      captives := (w.quantity r).captives.filter fun c => w.isNode (some c.1)
      springIds := springIds, lower := lower, upper := upper }
  lower : ∀ r ∈ t.declared, Opened w t (w.quantity r).lower (t.quantity r).lower
  upper : ∀ r ∈ t.declared, Opened w t (w.quantity r).upper (t.quantity r).upper
  owns : ∀ r i, t.Owns r i → w.Owns r i
  live : ∀ r i, t.Owns r i → ∀ s, t.springRef? (some i) = some s → w.springRef? (some i) = some s
  owned : ∀ r i, t.Owns r i → ∀ s, w.springRef? (some i) = some s →
    ∃ s', (t.withScene w.toScene).Keeps r i (w.spring s) s' ∧ SameSetting s' (t.spring s)
  others : ∀ s, (∀ r i, t.Owns r i → w.springRef? (some i) ≠ some s) →
    SameSetting (w.spring s) (t.spring s)

theorem Trimmed.captives_eq (h : Trimmed w t) (hw : w.Sound) (ht : t.Tidy) (hr : r ∈ t.declared) :
    (t.quantity r).captives = (w.quantity r).captives.filter fun c => w.isNode (some c.1) := by
  refine eq_of_sublist (hw.captives_nodup (h.declared.subset hr)).of_map (h.captives r hr).1
    List.filter_sublist fun c => ?_
  rw [h.mem_captives (h.within ht) hr, List.mem_filter]

/-- The first captive stays the first, unless it is gone. -/
theorem Trimmed.head?_captives (h : Trimmed w t) (hw : w.Sound) (ht : t.Tidy) (hr : r ∈ t.declared)
    (hfirst : ∀ c, (w.quantity r).captives.head? = some c → w.isNode (some c.1)) :
    (t.quantity r).captives.head? = (w.quantity r).captives.head? := by
  rw [h.captives_eq hw ht hr]
  cases hc : (w.quantity r).captives with
  | nil => rfl
  | cons c cs =>
    have hnode : w.isNode (some c.1) := hfirst c (by rw [hc]; rfl)
    rw [List.filter_cons_of_pos (p := fun c : Id × Id => w.isNode (some c.1)) hnode]
    rfl

/-- Whatever the frame does, it starts from springs that are all set, and it sets none. -/
theorem refresh_stages (h : w.Sound) (dt : Option K) :
    (refresh dt).wp
      (fun o t => ∃ u v x y, (Trimmed w u ∧ u.Tidy) ∧
        Scene.Reset u.toScene v (u.ownedIds u.declared) u.Kept ∧
        (Scene.Strained v x ∧ Scene.Struck x y ∧ Scene.Onward v y) ∧ t = u.withScene y ∧
        (dt = none → o = .ok () ∧ y = v)) w := by
  unfold refresh
  rw [wp_bind]
  refine (prune_spec h).mono fun o u => ?_
  rintro ⟨rfl, hu, htidy⟩
  rw [next_ok, wp_bind, wp_read, next_ok, wp_bind]
  refine (forEach_refreshOne hu.sound htidy).mono fun o t => ?_
  rintro ⟨rfl, v, hv, rfl⟩
  have hvs : v.Sound := hu.sound.scene.alike hv.alike
  cases dt with
  | none =>
    exact ⟨u, v, v, v, ⟨hu, htidy⟩, hv, ⟨.refl v, .refl v, .refl hvs⟩, rfl, fun _ => ⟨rfl, rfl⟩⟩
  | some dt =>
    rw [next_ok]
    show (Scene.advance dt).onScene.wp _ (u.withScene v)
    rw [wp_onScene]
    refine (Scene.advance_spec (w := v) hvs dt).mono fun o y hy => ?_
    obtain ⟨ho, x, hx, hxy⟩ := hy
    exact ⟨u, v, x, y, ⟨hu, htidy⟩, hv, ⟨hx, hxy, ho⟩, rfl, fun e => by cases e⟩

theorem refresh_refreshed (h : w.Sound) (dt : Option K) :
    (refresh dt).wp (fun _ t => Refreshed w t) w := by
  refine (refresh_stages h dt).mono fun o t => ?_
  rintro ⟨u, v, x, y, ⟨hu, htidy⟩, hv, ⟨hvx, hxy, hvy⟩, rfl, -⟩
  have hsame : ∀ s, SameSetting (v.spring s) (y.spring s) := fun s => by
    rw [SameSetting, hxy.spring]
    exact hvx.spring s
  have hsprings : ∀ s, u.spring s = w.spring s := hu.struck.spring
  have hnamed : ∀ r i, u.Owns r i → u.springRef? (some i) = w.springRef? (some i) :=
    fun r i hi => hu.named h hi
  have hreads : Reads u (u.withScene w.toScene) :=
    .withScene (fun k => (hu.struck.map_position k).symm) hu.struck.config.symm
  constructor
  case declared => exact fun r => hu.mem_declared (hu.within htidy)
  case order => exact hu.declared
  case kept =>
    intro r hr
    obtain ⟨cs, is, lo, hi, e⟩ := hu.kept r hr
    have hcs := hu.captives_eq h htidy hr
    rw [e] at hcs
    exact ⟨is, lo, hi, by rw [← hcs]; exact e⟩
  case lower => exact hu.lower
  case upper => exact hu.upper
  case owns => exact hu.owns
  case live =>
    intro r i hi s hs
    have hs : v.springRef? (some i) = some s := by
      refine hvy.later.springRef? (hu.sound.scene.alike hv.alike) ?_ hs
      rw [hv.alike.nextSpring]
      exact hu.sound.owned_lt r i hi
    rw [hv.alike.springRef?, hnamed r i hi] at hs
    exact hs
  case owned =>
    intro r i hi s hs
    have hus : u.springRef? (some i) = some s := (hnamed r i hi).trans hs
    refine ⟨v.spring s, hreads.keeps hi.1 ?_, hsame s⟩
    rw [← hsprings]
    exact hv.set i (mem_ownedIds.2 ⟨r, hi⟩) s hus r hi
  case others =>
    intro s hs
    have hvs : v.spring s = w.spring s := by
      rw [← hsprings]
      refine hv.rest s fun i hi his => ?_
      obtain ⟨r, hr, hri⟩ := mem_ownedIds.1 hi
      exact hs r i ⟨hr, hri⟩ ((hnamed r i ⟨hr, hri⟩).symm.trans his)
    have := hsame s
    rwa [hvs] at this

/-! ### The order of the quantities does not matter -/

namespace Refreshed

theorem id_eq (h : Refreshed w t) (hr : r ∈ t.declared) :
    (t.quantity r).id = (w.quantity r).id := by
  obtain ⟨_, _, _, e⟩ := h.kept r hr
  rw [e]

variable {l : List Ref}

theorem bound_unique (h : w.Sound) (hl : l.Perm w.declared) (ht : Refreshed w t)
    (ht' : Refreshed (w.relist l) u) {b₁ b₂ : Option (Limit K)}
    (h₁ : Opened w t b b₁) (h₂ : Opened (w.relist l) u b b₂) (hb₁ : t.Backed b₁)
    (hb₂ : u.Backed b₂) : b₁ = b₂ := by
  have hmem : ∀ r, r ∈ u.declared ↔ r ∈ t.declared := fun r => by
    rw [ht.declared, ht'.declared]
    exact and_congr_left fun _ => hl.mem_iff
  have hid : ∀ s ∈ t.declared, s ∈ w.declared ∧ (t.quantity s).id = (w.quantity s).id :=
    fun s hs => ⟨ht.order.subset hs, ht.id_eq hs⟩
  have hid' : ∀ s ∈ u.declared, s ∈ w.declared ∧ (u.quantity s).id = (w.quantity s).id :=
    fun s hs => ⟨hl.mem_iff.1 (ht'.order.subset hs), ht'.id_eq hs⟩
  have hopen₂ : Opened w u b b₂ := by
    rcases h₂ with h₂ | ⟨h₂, r, hr, hru, e⟩
    · exact .inl h₂
    · exact .inr ⟨h₂, r, hl.mem_iff.1 hr, hru, e⟩
  exact h₁.unique h hmem hid hid' hopen₂ hb₁ hb₂

/-- The same is left of every quantity. -/
theorem quantity_unique (h : w.Sound) (hl : l.Perm w.declared) (ht : Refreshed w t)
    (ht' : Refreshed (w.relist l) u) (hts : t.Sound) (hus : u.Sound)
    (hr : r ∈ t.declared) (hru : r ∈ u.declared) : u.quantity r = t.quantity r := by
  have hlo : (t.quantity r).lower = (u.quantity r).lower :=
    bound_unique h hl ht ht' (ht.lower r hr) (ht'.lower r hru) (hts.lower r hr) (hus.lower r hru)
  have hhi : (t.quantity r).upper = (u.quantity r).upper :=
    bound_unique h hl ht ht' (ht.upper r hr) (ht'.upper r hru) (hts.upper r hr) (hus.upper r hru)
  have hkept := ht.kept r hr
  have hkept' := ht'.kept r hru
  have hc : (t.quantity r).captives = (u.quantity r).captives := by
    obtain ⟨is, lo, hi, e⟩ := hkept
    obtain ⟨is', lo', hi', e'⟩ := hkept'
    rw [e, e']
    rfl
  exact ((h.proper r (ht.order.subset hr)).eq_of_captives (hts.proper r hr) (hus.proper r hru)
    ⟨_, hkept⟩ ⟨_, hkept'⟩ (fun i hi => (ht.owns r i ⟨hr, hi⟩).2)
    (fun i hi => (ht'.owns r i ⟨hru, hi⟩).2) hc hlo hhi).symm

/-- However the quantities are listed, the springs are set alike. -/
theorem perm (h : w.Sound) (hl : l.Perm w.declared) (ht : Refreshed w t)
    (ht' : Refreshed (w.relist l) u) (hts : t.Sound) (hus : u.Sound) (s : Ref) :
    SameSetting (t.spring s) (u.spring s) := by
  have hmem : ∀ r, r ∈ u.declared ↔ r ∈ t.declared := fun r => by
    rw [ht.declared, ht'.declared]
    exact and_congr_left fun _ => hl.mem_iff
  have hquantity : ∀ r ∈ t.declared, u.quantity r = t.quantity r := fun r hr =>
    quantity_unique h hl ht ht' hts hus hr ((hmem r).2 hr)
  have howns : ∀ r i, u.Owns r i ↔ t.Owns r i := by
    intro r i
    refine ⟨fun ⟨hr, hi⟩ => ?_, fun ⟨hr, hi⟩ => ?_⟩
    · have hrt := (hmem r).1 hr
      exact ⟨hrt, hquantity r hrt ▸ hi⟩
    · exact ⟨(hmem r).2 hr, (hquantity r hr).symm ▸ hi⟩
  have hreads : Reads (t.withScene w.toScene) (u.withScene w.toScene) := by
    refine ⟨fun k => Option.ext fun r => ?_, hquantity, fun _ => rfl, rfl⟩
    show u.quantityRef? k = some r ↔ t.quantityRef? k = some r
    rw [hts.quantityRef?_iff, hus.quantityRef?_iff, hmem]
    exact and_congr_right fun hr => by rw [hquantity r hr]
  by_cases hown : ∃ r i, t.Owns r i ∧ w.springRef? (some i) = some s
  · obtain ⟨r, i, hi, hs⟩ := hown
    obtain ⟨s₁, hk₁, hs₁⟩ := ht.owned r i hi s hs
    obtain ⟨s₂, hk₂, hs₂⟩ := ht'.owned r i ((howns r i).2 hi) s hs
    have hc : ((u.quantity r).captives.map Prod.snd).Nodup :=
      hus.captives_nodup ((hmem r).2 hi.1)
    have hsame : s₁ = s₂ := Keeps.unique (w := u.withScene w.toScene) hc (hreads.keeps hi.1 hk₁) hk₂
    rw [SameSetting, hs₂, hs₁, hsame]
  · have hs₁ := ht.others s fun r i hi hs => hown ⟨r, i, hi, hs⟩
    have hs₂ := ht'.others s fun r i hi hs => hown ⟨r, i, (howns r i).1 hi, hs⟩
    rw [SameSetting, hs₂, hs₁]
    rfl

end Refreshed

/-! ### Without a frame -/

/-- A refresh without a frame succeeds and leaves every node where it is. Nothing is missing
afterwards, and every spring is as it has to be. -/
theorem refresh_none (h : w.Sound) :
    (refresh none).wp
      (fun o t => o = .ok () ∧ t.Sound ∧ (t.Tidy ∧ t.Settled) ∧
        (t.graph.nodes.map fun n => (n.id, n.position, n.velocity)) =
          w.graph.nodes.map fun n => (n.id, n.position, n.velocity)) w := by
  refine ((refresh_stages h none).and (refresh_shrunk h none)).mono fun o t => ?_
  rintro ⟨⟨u, v, x, y, ⟨hu, htidy⟩, hv, -, rfl, hnone⟩, ht⟩
  obtain ⟨rfl, rfl⟩ := hnone rfl
  have hgraph : y.graph = u.graph := hv.graph
  have hreads : Reads u (u.withScene y) := by
    refine .withScene (fun k => ?_) (congrArg Graph.config hgraph)
    rw [Scene.node?, Scene.node?, hgraph]
  refine ⟨rfl, ht.sound, ⟨tidy_withScene htidy hgraph, fun i s hs r hi => ?_⟩, ?_⟩
  · have hus : u.springRef? (some i) = some s := by
      rw [← hv.alike.springRef?]
      exact hs
    exact hreads.keeps hi.1 (hv.set i (mem_ownedIds.2 ⟨r, hi⟩) s hus r hi).again
  · show (y.graph.nodes.map fun n => (n.id, n.position, n.velocity)) = _
    have hplaces := congrArg (List.map fun n : Node K => (n.id, n.position, n.velocity))
      hu.struck.places
    rw [hgraph]
    simpa [Function.comp_def] using hplaces

/-- A refresh with a frame is one without and a frame of the scene. -/
theorem refresh_some (dt : K) : (refresh (some dt) : Act K (Sketch K) Unit) = (do
    refresh none
    (Scene.advance dt).onScene) := by
  unfold refresh
  simp only [bind_assoc]
  rfl

/-- Where nothing is missing and all is set, a refresh is a frame of the scene. -/
theorem wp_refresh_settled (h : w.Sound) (ht : w.Tidy) (hs : w.Settled)
    {Q : Except (Failure K) Unit → Sketch K → Prop} {dt : Option K} :
    (refresh dt).wp Q w ↔
      match dt with
      | none => Q (.ok ()) w
      | some dt => (Scene.advance dt).onScene.wp Q w := by
  obtain ⟨ho, hw⟩ := prune_tidy ht
  obtain ⟨ho', hw'⟩ := forEach_refreshOne_settled h ht hs
  unfold refresh
  rw [wp_bind, wp, ho, hw, next_ok, wp_bind, wp_read, next_ok, wp_bind, wp, ho', hw', next_ok]
  cases dt <;> exact Iff.rfl

theorem refresh_settled (h : w.Sound) (ht : w.Tidy) (hs : w.Settled) :
    (refresh none).wp (fun o t => o = .ok () ∧ t = w) w :=
  (wp_refresh_settled h ht hs).2 ⟨rfl, rfl⟩

end Linkage.Sketch
