import Linkage.Proofs.Scene.Bounds
import Linkage.Proofs.Sketch.Sound

/-!
# Changes keep a sketch sound

`Sketch.Onward w t` says that `t` is sound and may come after `w`. Going on, a sketch either grows,
so that names stay and what is owned newly is a new spring (`Sketch.Grown`), or it shrinks, so that
nothing is owned newly (`Sketch.Shrunk`).

`Sketch.Fits` is what a quantity has to be to stand among the declared ones.
-/

namespace Linkage.Sketch

variable {K : Type} {w t u : Sketch K} {k : Key} {r s : Ref} {i n : Id} {q : Quantity K}

/-! ### What is read after a change -/

theorem quantity_changeQuantity_self (f : Quantity K → Quantity K) (h : r < w.quantities.size) :
    (w.changeQuantity r f).quantity r = f (w.quantity r) :=
  Arena.get_modify_self f h

theorem quantity_changeQuantity_ne (f : Quantity K → Quantity K) (h : s ≠ r) :
    (w.changeQuantity r f).quantity s = w.quantity s :=
  Arena.get_modify_ne f h

theorem quantity_declare_self : ((w.makeQuantity q).declare w.quantities.fresh).quantity
    w.quantities.fresh = q :=
  Arena.get_alloc_self

theorem quantity_declare_of_lt (h : s < w.quantities.size) :
    ((w.makeQuantity q).declare w.quantities.fresh).quantity s = w.quantity s :=
  Arena.get_alloc_of_lt h

/-- A change for each reference of a list without repetitions. -/
theorem get_foldl_modify (f : Quantity K → Quantity K) (l : List Ref) (hl : l.Nodup)
    (a : Arena (Quantity K)) (hlt : ∀ r ∈ l, r < a.size) (s : Ref) :
    (l.foldl (fun a r => a.modify r f) a).get s = if s ∈ l then f (a.get s) else a.get s := by
  induction l generalizing a with
  | nil => simp
  | cons r l ih =>
    obtain ⟨hr, hl⟩ := List.nodup_cons.1 hl
    rw [List.foldl_cons, ih hl _ fun s hs => by
      rw [Arena.size_modify]
      exact hlt s (by simp [hs])]
    by_cases hs : s = r
    · subst hs
      rw [if_neg hr, if_pos (by simp), Arena.get_modify_self f (hlt s (by simp))]
    · rw [Arena.get_modify_ne f hs]
      simp [hs]

theorem size_foldl_modify (f : Quantity K → Quantity K) (l : List Ref) (a : Arena (Quantity K)) :
    (l.foldl (fun a r => a.modify r f) a).size = a.size := by
  induction l generalizing a with
  | nil => rfl
  | cons r l ih => rw [List.foldl_cons, ih, Arena.size_modify]

theorem Backed.mono {b : Option (Limit K)} (h : w.Backed b)
    (e : ∀ r ∈ w.declared, r ∈ t.declared ∧ (t.quantity r).id = (w.quantity r).id) :
    t.Backed b := by
  intro i hi
  obtain ⟨r, hr, hid⟩ := h i hi
  exact ⟨r, (e r hr).1, (e r hr).2.trans hid⟩

variable [Scalar K]

/-! ### Going on -/

/-- A sound sketch that may come after another one. -/
structure Onward (w t : Sketch K) : Prop where
  sound : t.Sound
  ordered : w.Ordered → t.Ordered
  bare : w.Bare → t.Bare
  scene : Scene.Later w.toScene t.toScene

/-- No name is lost, and what is owned newly is a new spring, without play if it is a rail's. -/
structure Grown (w t : Sketch K) : Prop extends Onward w t where
  spared : Scene.Spared w.toScene t.toScene
  kept : ∀ k s, w.springRef? k = some s → t.springRef? k = some s
  owns : ∀ r i, t.Owns r i → w.Owns r i ∨ ∃ s, w.springs.size ≤ s ∧
    t.springRef? (some i) = some s ∧ ((t.spring s).kind = .rail → (t.spring s).Tight)

/-- Nothing is owned newly. -/
structure Shrunk (w t : Sketch K) : Prop extends Onward w t where
  spared : Scene.Spared w.toScene t.toScene
  owns : ∀ r i, t.Owns r i → w.Owns r i

theorem Onward.refl (h : w.Sound) : Onward w w := ⟨h, id, id, .refl _⟩

theorem Onward.trans (h : Onward w t) (h' : Onward t u) : Onward w u :=
  ⟨h'.sound, h'.ordered ∘ h.ordered, h'.bare ∘ h.bare, h.scene.trans h'.scene⟩

theorem Grown.refl (h : w.Sound) : Grown w w :=
  ⟨.refl h, .refl _, fun _ _ => id, fun _ _ => .inl⟩

theorem Grown.trans (h : Grown w t) (h' : Grown t u) : Grown w u where
  toOnward := h.toOnward.trans h'.toOnward
  spared := h.spared.trans h'.spared
  kept k s hs := h'.kept k s (h.kept k s hs)
  owns r i hi := by
    rcases h'.owns r i hi with hi | ⟨s, hs, hi, htight⟩
    · rcases h.owns r i hi with hi | ⟨s, hs, hi, htight⟩
      · exact .inl hi
      · refine .inr ⟨s, hs, h'.kept _ s hi, fun hk => ?_⟩
        have hk' : (t.spring s).kind = .rail :=
          h'.scene.kind_eq h.sound.scene hi (h'.kept _ s hi) ▸ hk
        exact h'.spared.tight hk' (htight hk')
    · exact .inr ⟨s, Nat.le_trans h.scene.size_le hs, hi, htight⟩

theorem Shrunk.refl (h : w.Sound) : Shrunk w w := ⟨.refl h, .refl _, fun _ _ => id⟩

theorem Shrunk.trans (h : Shrunk w t) (h' : Shrunk t u) : Shrunk w u :=
  ⟨h.toOnward.trans h'.toOnward, h.spared.trans h'.spared,
    fun r i hi => h.owns r i (h'.owns r i hi)⟩

/-! ### The scene changes -/

theorem onward_withScene (h : w.Sound) {v : Scene K} (e : Scene.Onward w.toScene v) :
    Onward w (w.withScene v) where
  sound :=
    { h with
      scene := e.sound
      owned_lt := fun r i hi => Int.lt_of_lt_of_le (h.owned_lt r i hi) e.later.nextSpring_le
      made := fun r i hi s hs => by
        obtain ⟨hs', hid⟩ := Scene.of_springRef?_eq_some (w := v) hs
        obtain ⟨-, -, hk, he⟩ := e.later.spring s hs' i hid (h.owned_lt r i hi)
        have hold := e.later.springRef? h.scene (h.owned_lt r i hi) hs
        exact (h.made r i hi s hold).congr hk he }
  ordered := id
  bare := id
  scene := e.later

theorem shrunk_withScene (h : w.Sound) {v : Scene K} (e : Scene.Onward w.toScene v)
    (hs : Scene.Spared w.toScene v) : Shrunk w (w.withScene v) :=
  ⟨onward_withScene h e, hs, fun _ _ => id⟩

theorem grown_withScene (h : w.Sound) {v : Scene K} (e : Scene.Onward w.toScene v)
    (hs : Scene.Spared w.toScene v)
    (hk : ∀ k s, w.springRef? k = some s → v.springRef? k = some s) : Grown w (w.withScene v) :=
  ⟨onward_withScene h e, hs, hk, fun _ _ => .inl⟩

theorem alike_withScene (h : w.Sound) {v : Scene K} (e : Scene.Alike w.toScene v)
    (hs : Scene.Spared w.toScene v) : Grown w (w.withScene v) :=
  grown_withScene h ((Scene.Onward.refl h.scene).alike e) hs fun k s hk => by
    rw [e.springRef?]
    exact hk

/-! ### A quantity changes or is declared -/

/-- The quantity may stand at this place among the declared ones. -/
structure Fits (w : Sketch K) (r : Ref) (q : Quantity K) : Prop where
  proper : q.Proper
  springIds_nodup : q.springIds.Nodup
  apart : ∀ s ∈ w.declared, s ≠ r → ∀ i ∈ q.springIds, i ∉ (w.quantity s).springIds
  owned_lt : ∀ i ∈ q.springIds, i < w.graph.nextSpring
  made : ∀ i ∈ q.springIds, ∀ s, w.springRef? (some i) = some s → q.Made i (w.spring s)
  lower : w.Backed q.lower
  upper : w.Backed q.upper

theorem Sound.fits (h : w.Sound) (hr : r ∈ w.declared) : Fits w r (w.quantity r) where
  proper := h.proper r hr
  springIds_nodup := h.springIds_nodup r hr
  apart s hs hne i hi hi' := hne (h.owner_unique s r i ⟨hs, hi'⟩ ⟨hr, hi⟩)
  owned_lt i hi := h.owned_lt r i ⟨hr, hi⟩
  made i hi := h.made r i ⟨hr, hi⟩
  lower := h.lower r hr
  upper := h.upper r hr

/-- Sound is a sketch whose quantities all fit. -/
theorem sound_of_fits (hs : t.toScene.Sound) (hlt : ∀ r ∈ t.declared, r < t.quantities.size)
    (hid : (t.declared.map fun r => (t.quantity r).id).Nodup)
    (hn : ∀ r ∈ t.declared, (t.quantity r).id < t.nextQuantity)
    (hf : ∀ r ∈ t.declared, Fits t r (t.quantity r)) : t.Sound where
  scene := hs
  declared_lt := hlt
  ids_nodup := hid
  id_lt := hn
  proper r hr := (hf r hr).proper
  springIds_nodup r hr := (hf r hr).springIds_nodup
  owner_unique r s i hr hs := by
    by_contra hne
    exact (hf r hr.1).apart s hs.1 (Ne.symm hne) i hr.2 hs.2
  owned_lt r i hr := (hf r hr.1).owned_lt i hr.2
  made r i hr := (hf r hr.1).made i hr.2
  lower r hr := (hf r hr).lower
  upper r hr := (hf r hr).upper

section

variable {f : Quantity K → Quantity K}

omit [Scalar K] in
theorem id_changeQuantity (hid : (f (w.quantity r)).id = (w.quantity r).id)
    (hr : r < w.quantities.size) (s : Ref) :
    ((w.changeQuantity r f).quantity s).id = (w.quantity s).id := by
  by_cases hs : s = r
  · rw [hs, quantity_changeQuantity_self f hr, hid]
  · rw [quantity_changeQuantity_ne f hs]

/-- What fits in the place of a quantity fits when it is put there, and so do the others. -/
theorem fits_changeQuantity (h : w.Sound) (hr : r ∈ w.declared)
    (hid : (f (w.quantity r)).id = (w.quantity r).id) (hf : Fits w r (f (w.quantity r)))
    (hs : s ∈ w.declared) :
    Fits (w.changeQuantity r f) s ((w.changeQuantity r f).quantity s) := by
  have hself : (w.changeQuantity r f).quantity r = f (w.quantity r) :=
    quantity_changeQuantity_self f (h.declared_lt r hr)
  have hother : ∀ s, s ≠ r → (w.changeQuantity r f).quantity s = w.quantity s := fun s hs =>
    quantity_changeQuantity_ne f hs
  have hback : ∀ b, w.Backed b → (w.changeQuantity r f).Backed b := fun b hb =>
    hb.mono fun s hs => ⟨hs, id_changeQuantity hid (h.declared_lt r hr) s⟩
  by_cases he : s = r
  · subst he
    rw [hself]
    exact { hf with
      apart := fun s' hs' hne => by
        rw [hother s' hne]
        exact hf.apart s' hs' hne
      lower := hback _ hf.lower
      upper := hback _ hf.upper }
  · have hfs := h.fits hs
    rw [hother s he]
    exact { hfs with
      apart := fun s' hs' hne i hi => by
        by_cases he' : s' = r
        · subst he'
          rw [hself]
          exact fun hi' => hf.apart s hs he i hi' hi
        · rw [hother s' he']
          exact hfs.apart s' hs' hne i hi
      lower := hback _ hfs.lower
      upper := hback _ hfs.upper }

theorem onward_changeQuantity (h : w.Sound) (hr : r ∈ w.declared)
    (hid : (f (w.quantity r)).id = (w.quantity r).id) (hf : Fits w r (f (w.quantity r)))
    (hothers : (f (w.quantity r)).others = (w.quantity r).others) :
    Onward w (w.changeQuantity r f) := by
  have hids := id_changeQuantity hid (h.declared_lt r hr)
  refine ⟨sound_of_fits h.scene (fun s hs => ?_) ?_ (fun s hs => ?_)
    fun s hs => fits_changeQuantity h hr hid hf hs, fun ho => ?_, fun hb s hs => ?_, .refl _⟩
  · show s < (w.quantities.modify r f).size
    rw [Arena.size_modify]
    exact h.declared_lt s hs
  · show (w.declared.map fun s => ((w.changeQuantity r f).quantity s).id).Nodup
    simp only [hids]
    exact h.ids_nodup
  · rw [hids]
    exact h.id_lt s hs
  · show w.declared.Pairwise fun s s' =>
      ((w.changeQuantity r f).quantity s).id < ((w.changeQuantity r f).quantity s').id
    simp only [hids]
    exact ho
  · by_cases he : s = r
    · rw [he, quantity_changeQuantity_self f (h.declared_lt r hr), hothers]
      exact hb r hr
    · rw [quantity_changeQuantity_ne f he]
      exact hb s hs

theorem owns_changeQuantity (h : w.Sound) (hi : (w.changeQuantity r f).Owns s i) :
    (s ≠ r ∧ w.Owns s i) ∨ (s = r ∧ i ∈ (f (w.quantity r)).springIds) := by
  obtain ⟨hs, hi⟩ := hi
  by_cases he : s = r
  · subst he
    rw [quantity_changeQuantity_self f (h.declared_lt s hs)] at hi
    exact .inr ⟨rfl, hi⟩
  · rw [quantity_changeQuantity_ne f he] at hi
    exact .inl ⟨he, hs, hi⟩

end

/-- Bounds of a declared quantity may be set to others that refer to declared quantities. -/
theorem grown_changeBounds (h : w.Sound) (hr : r ∈ w.declared) {f : Quantity K → Quantity K}
    (hf : ∃ lo hi, w.Backed lo ∧ w.Backed hi ∧
      f (w.quantity r) = { w.quantity r with lower := lo, upper := hi }) :
    Grown w (w.changeQuantity r f) := by
  obtain ⟨lo, hi, hlo, hhi, e⟩ := hf
  have hfit : Fits w r (f (w.quantity r)) := by
    rw [e]
    exact { h.fits hr with lower := hlo, upper := hhi }
  refine ⟨onward_changeQuantity h hr (by rw [e]) hfit (by rw [e]), .refl _, fun _ _ => id,
    fun s i hi => .inl ?_⟩
  rcases owns_changeQuantity h hi with ⟨-, hi⟩ | ⟨rfl, hi⟩
  · exact hi
  · rw [e] at hi
    exact ⟨hr, hi⟩

omit [Scalar K] in
theorem mem_declare : r ∈ ((w.makeQuantity q).declare w.quantities.fresh).declared ↔
    r ∈ w.declared ∨ r = w.quantities.fresh := by
  show r ∈ w.declared ++ [w.quantities.fresh] ↔ _
  rw [List.mem_append, List.mem_singleton]

/-- What fits in as a new quantity fits when it is declared, and so do the others. -/
theorem fits_declare (h : w.Sound) (hq : Fits w w.quantities.fresh q)
    (hr : r ∈ ((w.makeQuantity q).declare w.quantities.fresh).declared) :
    Fits ((w.makeQuantity q).declare w.quantities.fresh) r
      (((w.makeQuantity q).declare w.quantities.fresh).quantity r) := by
  let t := (w.makeQuantity q).declare w.quantities.fresh
  have hself : t.quantity w.quantities.fresh = q := quantity_declare_self
  have hother : ∀ r ∈ w.declared, t.quantity r = w.quantity r := fun r hr =>
    quantity_declare_of_lt (h.declared_lt r hr)
  have hback : ∀ b, w.Backed b → t.Backed b := fun b hb => hb.mono fun r hr =>
    ⟨mem_declare.2 (.inl hr), by rw [hother r hr]⟩
  rcases mem_declare.1 hr with hr | rfl
  · have hfr := h.fits hr
    have hne : r ≠ w.quantities.fresh := Nat.ne_of_lt (h.declared_lt r hr)
    show Fits t r (t.quantity r)
    rw [hother r hr]
    exact { hfr with
      apart := fun s hs hsr i hi => by
        rcases mem_declare.1 hs with hs | rfl
        · rw [hother s hs]
          exact hfr.apart s hs hsr i hi
        · rw [hself]
          exact fun hi' => hq.apart r hr hne i hi' hi
      lower := hback _ hfr.lower
      upper := hback _ hfr.upper }
  · show Fits t w.quantities.fresh (t.quantity w.quantities.fresh)
    rw [hself]
    exact { hq with
      apart := fun s hs hsr => by
        rcases mem_declare.1 hs with hs | rfl
        · rw [hother s hs]
          exact hq.apart s hs hsr
        · exact absurd rfl hsr
      lower := hback _ hq.lower
      upper := hback _ hq.upper }

/-- A new quantity under an id above all others. -/
theorem onward_declare (h : w.Sound) (hlt : ∀ r ∈ w.declared, (w.quantity r).id < q.id)
    (hn : q.id < w.nextQuantity) (hq : Fits w w.quantities.fresh q) (hothers : q.others = []) :
    Onward w ((w.makeQuantity q).declare w.quantities.fresh) := by
  let t := (w.makeQuantity q).declare w.quantities.fresh
  have hself : t.quantity w.quantities.fresh = q := quantity_declare_self
  have hother : ∀ r ∈ w.declared, t.quantity r = w.quantity r := fun r hr =>
    quantity_declare_of_lt (h.declared_lt r hr)
  refine ⟨sound_of_fits h.scene (fun r hr => ?_) ?_ (fun r hr => ?_) fun r => fits_declare h hq, ?_,
    fun hb r hr => ?_, .refl _⟩
  · have hsize : t.quantities.size = w.quantities.size + 1 := Arena.size_alloc
    rw [hsize]
    rcases mem_declare.1 hr with hr | hr
    · exact Nat.lt_succ_of_lt (h.declared_lt r hr)
    · exact hr ▸ Nat.lt_succ_self _
  · show ((w.declared ++ [w.quantities.fresh]).map fun r => (t.quantity r).id).Nodup
    have hids : (w.declared.map fun r => (t.quantity r).id) =
        w.declared.map fun r => (w.quantity r).id :=
      List.map_congr_left fun r hr => by rw [hother r hr]
    rw [List.map_append, hids, List.nodup_append]
    refine ⟨h.ids_nodup, by simp, fun i hi j hj => ?_⟩
    obtain ⟨r, hr, rfl⟩ := List.mem_map.1 hi
    rw [List.map_singleton, List.mem_singleton, hself] at hj
    rw [hj]
    exact Int.ne_of_lt (hlt r hr)
  · rcases mem_declare.1 hr with hr | rfl
    · rw [hother r hr]
      exact h.id_lt r hr
    · rw [hself]
      exact hn
  · intro ho
    refine List.pairwise_append.2 ⟨ho.imp_of_mem fun {r s} hr hs hrs => ?_,
      List.pairwise_singleton _ _, fun r hr s hs => ?_⟩
    · show (t.quantity r).id < (t.quantity s).id
      rwa [hother r hr, hother s hs]
    · rw [List.mem_singleton.1 hs]
      show (t.quantity r).id < (t.quantity w.quantities.fresh).id
      rw [hother r hr, hself]
      exact hlt r hr
  · rcases mem_declare.1 hr with hr | rfl
    · rw [hother r hr]
      exact hb r hr
    · rw [hself]
      exact hothers

theorem owns_declare (h : w.Sound)
    (hi : ((w.makeQuantity q).declare w.quantities.fresh).Owns r i) :
    w.Owns r i ∨ (r = w.quantities.fresh ∧ i ∈ q.springIds) := by
  obtain ⟨hr, hi⟩ := hi
  rcases mem_declare.1 hr with hr | rfl
  · rw [quantity_declare_of_lt (h.declared_lt r hr)] at hi
    exact .inl ⟨hr, hi⟩
  · rw [quantity_declare_self] at hi
    exact .inr ⟨rfl, hi⟩

/-! ### Captives come and go -/

omit [Scalar K] in
theorem captives_hold (hc : ∀ c ∈ q.captives, c.1 ≠ n) :
    (q.hold n i).captives = q.captives ++ [(n, i)] := by
  have hnew : (q.captives.any fun c => c.1 == n) = false := by
    simpa using fun a b hab => hc (a, b) hab
  show Quantity.putCaptive q.captives n i = _
  rw [Quantity.putCaptive, hnew]
  rfl

omit [Scalar K] in
/-- A captive goes with its spring id. -/
theorem erase_captive {captives : List (Id × Id)} (hf : (captives.map Prod.fst).Nodup)
    (hs : (captives.map Prod.snd).Nodup) (hc : (n, i) ∈ captives) :
    (captives.map Prod.snd).erase i =
      (captives.filter fun c => some c.1 != some n).map Prod.snd := by
  rw [hs.erase_eq_filter, List.filter_map]
  congr 1
  refine List.filter_congr fun c hca => ?_
  rw [Bool.eq_iff_iff]
  simp only [Function.comp_apply, bne_iff_ne, ne_eq, Option.some.injEq]
  refine not_congr ⟨fun e => ?_, fun e => ?_⟩
  · rw [List.inj_on_of_nodup_map hs hca hc e]
  · rw [List.inj_on_of_nodup_map hf hca hc e]

section

variable (h : w.Sound) (hr : r ∈ w.declared) (hk : (w.quantity r).kind = .rail)

include h hr hk

/-- A node that is not held yet and no end of the rail, by a spring that nobody owns. -/
theorem fits_hold (hn : n ≠ (w.quantity r).a ∧ n ≠ (w.quantity r).b)
    (hc : ∀ c ∈ (w.quantity r).captives, c.1 ≠ n) (hlt : i < w.graph.nextSpring)
    (hfree : ∀ s, ¬ w.Owns s i)
    (hm : ∀ s, w.springRef? (some i) = some s →
      (w.spring s).kind = .rail ∧ (w.spring s).endpoints = [some n]) :
    Fits w r ((w.quantity r).hold n i) := by
  have hq := h.fits hr
  obtain ⟨hids, hnodup, hends⟩ := (Quantity.proper_rail hk).1 hq.proper
  have hcap : ((w.quantity r).hold n i).captives = (w.quantity r).captives ++ [(n, i)] :=
    captives_hold hc
  have hspr : ((w.quantity r).hold n i).springIds = (w.quantity r).springIds ++ [i] := rfl
  have hmem : ∀ j, j ∈ ((w.quantity r).hold n i).springIds ↔
      j ∈ (w.quantity r).springIds ∨ j = i := by simp [hspr]
  constructor
  case proper =>
    refine (Quantity.proper_rail (q := (w.quantity r).hold n i) hk).2 ⟨?_, ?_, ?_⟩
    · rw [hspr, hcap, hids, List.map_append]
      rfl
    · rw [hcap, List.map_append, List.nodup_append]
      refine ⟨hnodup, by simp, fun a ha b hb => ?_⟩
      obtain ⟨c, hca, rfl⟩ := List.mem_map.1 ha
      rw [List.mem_singleton.1 hb]
      exact hc c hca
    · intro c hca
      rw [hcap] at hca
      rcases List.mem_append.1 hca with hca | hca
      · exact hends c hca
      · rw [List.mem_singleton.1 hca]
        exact hn
  case springIds_nodup =>
    rw [hspr, List.nodup_append]
    refine ⟨hq.springIds_nodup, by simp, fun a ha b hb e => ?_⟩
    rw [List.mem_singleton.1 hb] at e
    exact hfree r ⟨hr, e ▸ ha⟩
  case apart =>
    intro s hs hne j hj
    rcases (hmem j).1 hj with hj | rfl
    · exact hq.apart s hs hne j hj
    · exact fun hj => hfree s ⟨hs, hj⟩
  case owned_lt =>
    intro j hj
    rcases (hmem j).1 hj with hj | rfl
    · exact hq.owned_lt j hj
    · exact hlt
  case made =>
    intro j hj s hs
    refine (Quantity.made_rail (q := (w.quantity r).hold n i) hk).2 ?_
    rw [hcap]
    rcases (hmem j).1 hj with hj | rfl
    · obtain ⟨hkind, c, hca, he⟩ := (Quantity.made_rail hk).1 (hq.made j hj s hs)
      exact ⟨hkind, c, List.mem_append_left _ hca, he⟩
    · obtain ⟨hkind, he⟩ := hm s hs
      exact ⟨hkind, n, List.mem_append_right _ (List.mem_singleton_self _), he⟩
  case lower => exact hq.lower
  case upper => exact hq.upper

/-- The captive is let go with the spring that holds it. -/
theorem fits_release (hc : (n, i) ∈ (w.quantity r).captives) :
    Fits w r ((w.quantity r).release (some n) i) := by
  have hq := h.fits hr
  obtain ⟨hids, hnodup, hends⟩ := (Quantity.proper_rail hk).1 hq.proper
  have hspr : ((w.quantity r).release (some n) i).springIds =
      ((w.quantity r).captives.filter fun d => some d.1 != some n).map Prod.snd := by
    show (w.quantity r).springIds.erase i = _
    rw [hids]
    exact erase_captive hnodup (hids ▸ hq.springIds_nodup) hc
  have hsub : ∀ j ∈ ((w.quantity r).release (some n) i).springIds, j ∈ (w.quantity r).springIds :=
    fun j hj => List.mem_of_mem_erase hj
  constructor
  case proper =>
    refine (Quantity.proper_rail (q := (w.quantity r).release (some n) i) hk).2 ⟨hspr, ?_, ?_⟩
    · exact hnodup.sublist (List.filter_sublist.map _)
    · exact fun d hd => hends d (List.mem_filter.1 hd).1
  case springIds_nodup => exact hq.springIds_nodup.sublist List.erase_sublist
  case apart => exact fun s hs hne j hj => hq.apart s hs hne j (hsub j hj)
  case owned_lt => exact fun j hj => hq.owned_lt j (hsub j hj)
  case made =>
    intro j hj s hs
    obtain ⟨hkind, d, hd, he⟩ := (Quantity.made_rail hk).1 (hq.made j (hsub j hj) s hs)
    refine (Quantity.made_rail (q := (w.quantity r).release (some n) i) hk).2
      ⟨hkind, d, List.mem_filter.2 ⟨hd, ?_⟩, he⟩
    -- the captive let go has another spring
    rw [bne_iff_ne]
    intro e
    have hdn : (d, j) = (n, i) := List.inj_on_of_nodup_map hnodup hd hc (Option.some.inj e)
    cases hdn
    exact (hq.springIds_nodup.mem_erase_iff.1 hj).1 rfl
  case lower => exact hq.lower
  case upper => exact hq.upper

end

theorem shrunk_release (h : w.Sound) (hr : r ∈ w.declared)
    (hi : (w.quantity r).springHolding? k = some i) :
    Shrunk w (w.changeQuantity r (·.release k i)) := by
  obtain ⟨c, rfl, hc⟩ := Quantity.springHolding?_eq_some hi
  have hk : (w.quantity r).kind = .rail := (h.proper r hr).rail_of_mem hc
  refine ⟨onward_changeQuantity h hr rfl (fits_release h hr hk hc) rfl, .refl _, fun s j hj => ?_⟩
  rcases owns_changeQuantity h hj with ⟨-, hj⟩ | ⟨rfl, hj⟩
  · exact hj
  · exact ⟨hr, List.mem_of_mem_erase hj⟩

/-! ### A quantity goes -/

/-- The quantity gives up what it owns and is struck out, with the references to it. -/
def retire (w : Sketch K) (r : Ref) (k : Key) : Sketch K :=
  (w.changeQuantity r (·.disowned)).strike k

/-- The others are there as before, but for the references. -/
theorem quantity_retire (h : w.Sound) (hk : w.quantityRef? k = some r) (s : Ref) :
    (s ∈ (w.retire r k).declared ↔ s ∈ w.declared ∧ s ≠ r) ∧
      (s ∈ (w.retire r k).declared → (w.retire r k).quantity s = (w.quantity s).openReference k) ∧
      (s ∉ (w.retire r k).declared → s ≠ r → (w.retire r k).quantity s = w.quantity s) := by
  obtain ⟨hr, hid⟩ := of_quantityRef?_eq_some hk
  have hids : ∀ s, ((w.changeQuantity r (·.disowned)).quantity s).id = (w.quantity s).id :=
    id_changeQuantity rfl (h.declared_lt r hr)
  have hdecl : (w.retire r k).declared =
      w.declared.filter fun s => some (w.quantity s).id != k := by
    show (w.declared.filter fun s =>
      some ((w.changeQuantity r (·.disowned)).quantity s).id != k) = _
    simp only [hids]
  have hmem : s ∈ (w.retire r k).declared ↔ s ∈ w.declared ∧ s ≠ r := by
    rw [hdecl, List.mem_filter, bne_iff_ne, ← hid]
    refine and_congr_right fun hs => not_congr ⟨fun e => ?_, fun e => by rw [e]⟩
    exact h.eq_of_id_eq hs hr (Option.some.inj e)
  have hget : (w.retire r k).quantity s =
      if s ∈ (w.retire r k).declared then
        ((w.changeQuantity r (·.disowned)).quantity s).openReference k
      else (w.changeQuantity r (·.disowned)).quantity s := by
    refine get_foldl_modify _ _ (h.declared_nodup.sublist List.filter_sublist) _ (fun s hs => ?_) s
    show s < (w.quantities.modify r _).size
    rw [Arena.size_modify]
    exact h.declared_lt s (List.mem_filter.1 hs).1
  refine ⟨hmem, fun hs => ?_, fun hs hne => ?_⟩
  · rw [hget, if_pos hs, quantity_changeQuantity_ne _ (hmem.1 hs).2]
  · rw [hget, if_neg hs, quantity_changeQuantity_ne _ hne]

omit [Scalar K] in
theorem keepBound_eq_some {b : Option (Limit K)} {l : Limit K}
    (h : Quantity.keepBound k b = some l) : b = some l ∧ l.reference? ≠ k := by
  unfold Quantity.keepBound at h
  split at h
  · next l' =>
    by_cases he : l'.reference? = k
    · rw [if_pos he] at h
      cases h
    · rw [if_neg he] at h
      cases h
      exact ⟨rfl, he⟩
  · cases h

theorem shrunk_retire (h : w.Sound) (hk : w.quantityRef? k = some r) :
    Shrunk w (w.retire r k) := by
  obtain ⟨hr, hid⟩ := of_quantityRef?_eq_some hk
  have hmem : ∀ s, s ∈ (w.retire r k).declared ↔ s ∈ w.declared ∧ s ≠ r := fun s =>
    (quantity_retire h hk s).1
  have hget : ∀ s ∈ (w.retire r k).declared,
      (w.retire r k).quantity s = (w.quantity s).openReference k := fun s =>
    (quantity_retire h hk s).2.1
  have hsub : (w.retire r k).declared.Sublist w.declared := List.filter_sublist
  have hids : ((w.retire r k).declared.map fun s => ((w.retire r k).quantity s).id) =
      (w.retire r k).declared.map fun s => (w.quantity s).id :=
    List.map_congr_left fun s hs => by
      rw [hget s hs]
      rfl
  -- what is still referred to has another id than `k`
  have hback : ∀ b, w.Backed b → (w.retire r k).Backed (Quantity.keepBound k b) := by
    intro b hb i hi
    obtain ⟨hb', hne⟩ := keepBound_eq_some hi
    obtain ⟨s, hs, hsid⟩ := hb i hb'
    have hs' : s ∈ (w.retire r k).declared := by
      refine (hmem s).2 ⟨hs, ?_⟩
      rintro rfl
      exact hne (by rw [← hid, hsid]; rfl)
    exact ⟨s, hs', by rw [hget s hs']; exact hsid⟩
  have howns : ∀ s i, (w.retire r k).Owns s i → w.Owns s i := by
    rintro s i ⟨hs, hi⟩
    rw [hget s hs] at hi
    exact ⟨((hmem s).1 hs).1, hi⟩
  refine ⟨⟨sound_of_fits h.scene (fun s hs => ?_) ?_ (fun s hs => ?_) fun s hs => ?_, fun ho => ?_,
    fun hb s hs => ?_, .refl _⟩, .refl _, howns⟩
  · show s < (List.foldl _ (w.quantities.modify r _) _).size
    rw [size_foldl_modify, Arena.size_modify]
    exact h.declared_lt s (hsub.subset hs)
  · rw [hids]
    exact h.ids_nodup.sublist (hsub.map _)
  · rw [hget s hs]
    exact h.id_lt s (hsub.subset hs)
  · have hs' := hsub.subset hs
    have hq := h.fits hs'
    rw [hget s hs]
    exact
      { proper := hq.proper
        springIds_nodup := hq.springIds_nodup
        apart := fun s' hs'' hne i hi => by
          rw [hget s' hs'']
          exact hq.apart s' (hsub.subset hs'') hne i hi
        owned_lt := hq.owned_lt
        made := hq.made
        lower := hback _ hq.lower
        upper := hback _ hq.upper }
  · refine List.pairwise_map.1 (?_ : ((w.retire r k).declared.map fun s =>
      ((w.retire r k).quantity s).id).Pairwise (· < ·))
    rw [hids]
    exact (List.pairwise_map.2 ho : (w.declared.map fun s => (w.quantity s).id).Pairwise
      (· < ·)).sublist (hsub.map _)
  · rw [hget s hs]
    exact hb s (hsub.subset hs)

/-! ### Objects and ids that nothing refers to yet -/

theorem grown_makeQuantity (h : w.Sound) (q : Quantity K) : Grown w (w.makeQuantity q) := by
  have hget : ∀ r ∈ w.declared, (w.makeQuantity q).quantity r = w.quantity r := fun r hr =>
    Arena.get_alloc_of_lt (h.declared_lt r hr)
  have hids : (w.declared.map fun r => ((w.makeQuantity q).quantity r).id) =
      w.declared.map fun r => (w.quantity r).id :=
    List.map_congr_left fun r hr => by rw [hget r hr]
  have hback : ∀ b, w.Backed b → (w.makeQuantity q).Backed b := fun b hb =>
    hb.mono fun r hr => ⟨hr, by rw [hget r hr]⟩
  refine ⟨⟨sound_of_fits h.scene (fun r hr => ?_) ?_ (fun r hr => ?_) fun r hr => ?_, fun ho => ?_,
    fun hb r hr => ?_, .refl _⟩, .refl _, fun _ _ => id, ?_⟩
  · show r < (w.quantities.alloc q).size
    rw [Arena.size_alloc]
    exact Nat.lt_succ_of_lt (h.declared_lt r hr)
  · exact hids.symm ▸ h.ids_nodup
  · rw [hget r hr]
    exact h.id_lt r hr
  · have hq := h.fits (r := r) hr
    rw [hget r hr]
    exact { hq with
      apart := fun s hs hne => by
        rw [hget s hs]
        exact hq.apart s hs hne
      lower := hback _ hq.lower
      upper := hback _ hq.upper }
  · refine ho.imp_of_mem fun {r s} hr hs hrs => ?_
    rwa [hget r hr, hget s hs]
  · rw [hget r hr]
    exact hb r hr
  · rintro r i ⟨hr, hi⟩
    rw [hget r hr] at hi
    exact .inl ⟨hr, hi⟩

theorem grown_passId (h : w.Sound) : Grown w w.passId where
  sound := { h with id_lt := fun r hr => Int.lt_trans (h.id_lt r hr) (Int.lt_succ _) }
  ordered := id
  bare := id
  scene := .refl _
  spared := .refl _
  kept _ _ := id
  owns _ _ := .inl

end Linkage.Sketch
