import Linkage.Proofs.Impulse
import Linkage.Proofs.Drag

/-!
# Captives that glide

The spring of a rail pulls across the rail. A captive that has no other spring is slowed down along
the rail by friction alone, and goes where its velocity along the rail takes it (`Body.Glides`): the
seat that its spring leads to was found at the start of the frame, but what pulls the captive back
along the rail is taken away from the force.

`Scene.Bears` is what a frame keeps for this, and `Sketch.Rides` what a refresh keeps besides.
-/

namespace Linkage

open Act Scalar

namespace Point

variable {K : Type} [Scalar K]

/-- How fast a velocity goes along the line from `a` to `b`. -/
def slide (v a b : Point K) : K := dot v (b - a) / distance a b

variable {a b : Point ℝ}

theorem along_add (hab : tiny ≤ distance a b) (p v : Point ℝ) (h : ℝ) :
    along (p + h * v) a b = along p a b + h * slide v a b := by
  have hdot : dot (p + h * v - a) (b - a) = dot (p - a) (b - a) + h * dot v (b - a) := by
    unfold dot
    simp only [add_x, add_y, sub_x, sub_y, mul_x, mul_y]
    ring
  rw [along_eq hab, along_eq hab, slide, hdot]
  ring

/-- A force that is `k` times the velocity along the line, whatever it is across it. -/
theorem slide_add (v f : Point ℝ) (a b : Point ℝ) (h k : ℝ)
    (hf : dot f (b - a) = k * dot v (b - a)) :
    slide (v + h * f) a b = (1 + k * h) * slide v a b := by
  unfold slide
  rw [add_dot, mul_dot, hf]
  ring

end Point

/-- From `m` to `m'` in a sub-step of length `h`: along the line from `a` to `b` the body is slowed
down by friction and by nothing else. -/
structure Body.Glides (friction h : ℝ) (a b : Point ℝ) (m m' : Body ℝ) : Prop where
  velocity : Point.slide m'.velocity a b = (1 - friction * h) * Point.slide m.velocity a b
  position : Point.along m'.position a b =
    Point.along m.position a b + h * Point.slide m'.velocity a b

/-! ### Springs across a line -/

namespace Spring

/-- The spring pulls across the direction `d` only. -/
def Guides {K : Type} (d : Point K) (s : Spring K) : Prop :=
  s.kind = .rail ∧ s.atRailEnd = false ∧ s.railDirection = d

variable {s : Spring ℝ} {d : Point ℝ}

theorem Guides.dot_pull (h : s.Guides d) : Point.dot s.pull d = 0 := by
  obtain ⟨hkind, hend, rfl⟩ := h
  unfold pull
  rw [if_pos ⟨hkind, hend⟩, Point.mul_dot, Point.dot_unit_perp, mul_zero]

theorem Guides.dot_forceAt (h : s.Guides d) (k : Key) : Point.dot (s.forceAt k) d = 0 := by
  unfold forceAt
  split
  · exact h.dot_pull
  · split
    · rw [Point.neg_dot, h.dot_pull, neg_zero]
    · exact Point.zero_dot d

end Spring

theorem dot_foldl {α : Type} {d : Point ℝ} {g : Point ℝ → α → Point ℝ} {xs : List α}
    (hg : ∀ x ∈ xs, ∀ f, Point.dot (g f x) d = Point.dot f d) (f : Point ℝ) :
    Point.dot (xs.foldl g f) d = Point.dot f d := by
  induction xs generalizing f with
  | nil => rfl
  | cons x xs ih =>
    obtain ⟨hx, hxs⟩ := List.forall_mem_cons.1 hg
    rw [List.foldl_cons, ih hxs, hx]

/-- Springs that pull across a direction leave friction alone along it. -/
theorem Node.dot_netForce {n : Node ℝ} {springOf : Id → Option (Spring ℝ)} {d : Point ℝ}
    (hs : ∀ j ∈ n.springIds, ∀ s, springOf j = some s → s.Guides d) (friction : ℝ) :
    Point.dot (n.netForce springOf friction) d = -friction * Point.dot n.velocity d := by
  refine (dot_foldl (fun j hj f => ?_) _).trans (Point.mul_dot ..)
  cases e : springOf j with
  | none => rfl
  | some s => rw [Point.add_dot, (hs j hj s e).dot_forceAt, add_zero]

/-! ### Sub-steps -/

namespace Scene

section

variable {K : Type} {w t : Scene K} {k : Key}

def body? (w : Scene K) (k : Key) : Option (Body K) := (w.node? k).map Node.body

theorem node?_congr (h : t.graph = w.graph) (k : Key) : t.node? k = w.node? k := by
  unfold node?
  rw [h]

theorem Struck.body? (h : Struck w t) (k : Key) : t.body? k = w.body? k := by
  have hplaces := congrArg (Option.map Node.body) (h.node? k)
  rwa [Option.map_map, Option.map_map] at hplaces

variable [Scalar K]

theorem node?_move (w : Scene K) (friction h : K) (k : Key) :
    (w.move friction h).node? k = (w.node? k).map (·.moved w.springOf friction h) := by
  unfold node? move mapNodes
  rw [List.find?_map]
  rfl

/-- A node that has lost springs has no new ones. -/
theorem Struck.springIds_subset (h : Struck w t) (hw : w.Sound) (ht : t.Sound) {n n' : Node K}
    (hn : w.node? k = some n) (hn' : t.node? k = some n') :
    ∀ j ∈ n'.springIds, j ∈ n.springIds := by
  obtain ⟨hmem, hid⟩ := of_node?_eq_some hn
  obtain ⟨hmem', hid'⟩ := of_node?_eq_some hn'
  intro j hj
  obtain ⟨r, hr, hrj⟩ := (ht.mem_springIds hmem').1 hj
  obtain ⟨hrl, hends⟩ := mem_touching.1 hr
  rw [h.spring] at hrj hends
  rw [hid', ← hid] at hends
  exact (hw.mem_springIds hmem).2 ⟨r, mem_touching.2 ⟨h.listed.subset hrl, hends⟩, hrj⟩

theorem of_springOf_eq_some {i : Id} {s : Spring K} (h : w.springOf i = some s) :
    ∃ r ∈ w.graph.listed, w.spring r = s ∧ (w.spring r).id = some i := by
  have hmem := List.mem_of_find?_eq_some h
  rw [List.mem_reverse, members, List.mem_map] at hmem
  obtain ⟨r, hr, rfl⟩ := hmem
  exact ⟨r, hr, rfl, by simpa using List.find?_some h⟩

end

/-- The nodes `p` and `q` are at rest at `a` and `b`, without springs, and the node `k` has no
spring but the one of the id `i`. -/
structure Bears (p q k i : Id) (a b : Point ℝ) (w : Scene ℝ) : Prop where
  first : w.node? (some p) = some ⟨p, a, Point.zero, []⟩
  second : w.node? (some q) = some ⟨q, b, Point.zero, []⟩
  captive : ∃ n, w.node? (some k) = some n ∧ ∀ j ∈ n.springIds, j = i

/-- The spring of the id `i` pulls across the direction `d` only. -/
def Guided (i : Id) (d : Point ℝ) (w : Scene ℝ) : Prop :=
  ∀ r ∈ w.graph.listed, (w.spring r).id = some i → (w.spring r).Guides d

variable {w t : Scene ℝ} {p q k i : Id} {a b d : Point ℝ} {dt h friction : ℝ} {j : ℕ}

theorem Guided.strained (hw : Guided i d w) (h : Strained w t) : Guided i d t := by
  intro r hr hid
  rw [h.alike.listed] at hr
  rw [h.spring r] at hid ⊢
  exact hw r hr hid

namespace Bears

theorem congr (hw : Bears p q k i a b w) (h : t.graph = w.graph) : Bears p q k i a b t := by
  obtain ⟨ha, hb, hk⟩ := hw
  exact ⟨(node?_congr h _).trans ha, (node?_congr h _).trans hb, by rwa [node?_congr h]⟩

/-- A node at rest without springs stays. -/
theorem moved_at_rest (n : Id) (x : Point ℝ) (springOf : Id → Option (Spring ℝ))
    (friction h : ℝ) : (Node.mk n x Point.zero []).moved springOf friction h =
      ⟨n, x, Point.zero, []⟩ := by
  have hforce : (Node.mk n x Point.zero []).netForce springOf friction = Point.zero :=
    Point.smul_zero _
  unfold Node.moved Node.step
  rw [hforce]
  simp

theorem move (hw : Bears p q k i a b w) (friction h : ℝ) :
    Bears p q k i a b (w.move friction h) := by
  obtain ⟨ha, hb, n, hn, his⟩ := hw
  refine ⟨?_, ?_, n.moved w.springOf friction h, ?_, his⟩
  · rw [node?_move, ha, Option.map_some, moved_at_rest]
  · rw [node?_move, hb, Option.map_some, moved_at_rest]
  · rw [node?_move, hn, Option.map_some]

theorem glides (hw : Bears p q k i a b w) (hg : Guided i (b - a) w)
    (hab : tiny ≤ Point.distance a b) (friction h : ℝ) :
    ∃ m m', w.body? (some k) = some m ∧ (w.move friction h).body? (some k) = some m' ∧
      Body.Glides friction h a b m m' := by
  obtain ⟨-, -, n, hn, his⟩ := hw
  refine ⟨n.body, (n.moved w.springOf friction h).body, ?_, ?_, ?_⟩
  · rw [body?, hn, Option.map_some]
  · rw [body?, node?_move, hn, Option.map_some, Option.map_some]
  have hforce : Point.dot (n.netForce w.springOf friction) (b - a) =
      -friction * Point.dot n.velocity (b - a) := by
    refine Node.dot_netForce (fun j hj s hs => ?_) friction
    obtain ⟨r, hr, rfl, hid⟩ := of_springOf_eq_some hs
    exact hg r hr (his j hj ▸ hid)
  constructor
  · have hslide := Point.slide_add n.velocity _ a b h (-friction) hforce
    rw [neg_mul, ← sub_eq_add_neg] at hslide
    exact hslide
  · exact Point.along_add hab _ _ _

theorem struck (hb : Bears p q k i a b w) (hw : w.Sound) (ht : t.Sound) (h : Struck w t) :
    Bears p q k i a b t := by
  have hrest : ∀ {n x}, w.node? (some n) = some ⟨n, x, Point.zero, []⟩ →
      t.node? (some n) = some ⟨n, x, Point.zero, []⟩ := by
    intro n x hn
    have hnode := h.node? (some n)
    rw [hn, Option.map_some] at hnode
    obtain ⟨n', hn', e⟩ := Option.map_eq_some_iff.1 hnode
    have hnil : n'.springIds = [] := List.eq_nil_iff_forall_not_mem.2 fun j hj => by
      simpa using h.springIds_subset hw ht hn hn' j hj
    rw [hn', ← e, ← hnil]
  obtain ⟨n, hn, his⟩ := hb.captive
  have hnode := h.node? (some k)
  rw [hn, Option.map_some] at hnode
  obtain ⟨n', hn', -⟩ := Option.map_eq_some_iff.1 hnode
  exact ⟨hrest hb.first, hrest hb.second, n', hn',
    fun j hj => his j (h.springIds_subset hw ht hn hn' j hj)⟩

/-! ### Frames -/

theorem nodes_ne_nil (hb : Bears p q k i a b w) : w.graph.nodes ≠ [] :=
  List.ne_nil_of_mem (of_node?_eq_some hb.first).1

theorem advanceBy (hb : Bears p q k i a b w)
    (hok : (advanceBy dt j w).outcome = .ok ()) :
    Bears p q k i a b (Scene.advanceBy dt j w).state := by
  induction j with
  | zero => exact hb.congr (advanceBy_zero_graph w dt)
  | succ j ih =>
    obtain ⟨h, hh⟩ := exists_lengthFor_of_advanceBy hok
    obtain ⟨friction, hf⟩ := exists_friction hok hb.nodes_ne_nil
    obtain ⟨hto, hmove⟩ := advanceBy_succ_spec hok hh hf
    obtain ⟨hby, hgraph⟩ := advanceTo_spec hto
    rw [hmove]
    exact ((ih hby).congr hgraph).move friction h

theorem advanceBy_glides (hb : Bears p q k i a b w) (hg : Guided i (b - a) w)
    (hab : tiny ≤ Point.distance a b) (hok : (Scene.advanceBy dt (j + 1) w).outcome = .ok ())
    (hh : w.graph.config.stepping.lengthFor dt = .ok h)
    (hf : w.graph.config.stepping.friction = some friction) :
    ∃ m m', (Scene.advanceBy dt j w).state.body? (some k) = some m ∧
      (Scene.advanceBy dt (j + 1) w).state.body? (some k) = some m' ∧
      Body.Glides friction h a b m m' := by
  obtain ⟨hto, hmove⟩ := advanceBy_succ_spec hok hh hf
  obtain ⟨hby, hgraph⟩ := advanceTo_spec hto
  have hbody : (advanceTo dt j w).state.body? (some k) =
      (Scene.advanceBy dt j w).state.body? (some k) := by
    rw [body?, body?, node?_congr hgraph]
  rw [hmove, ← hbody]
  exact ((hb.advanceBy hby).congr hgraph).glides (hg.strained (advanceTo_strained w dt j)) hab
    friction h

end Bears

/-- In a frame that began at `w`: the captive is held across the line, and it stays where it is
along the line if it does not go along it. -/
structure Steered (p q k i : Id) (a b : Point ℝ) (w t : Scene ℝ) : Prop where
  sound : t.Sound
  guided : Guided i (b - a) t
  bears : Bears p q k i a b t
  still : ∀ m, w.body? (some k) = some m → Point.slide m.velocity a b = 0 →
    ∃ m', t.body? (some k) = some m' ∧ Point.slide m'.velocity a b = 0 ∧
      Point.along m'.position a b = Point.along m.position a b

namespace Steered

variable {v : Scene ℝ}

theorem idle (h : Steered p q k i a b v w) (ht : Idle w t) : Steered p q k i a b v t where
  sound := h.sound.alike ht.strained.alike
  guided := h.guided.strained ht.strained
  bears := h.bears.congr ht.graph
  still m hm hstill := by
    rw [body?, node?_congr ht.graph]
    exact h.still m hm hstill

theorem move (h : Steered p q k i a b v w) (hab : tiny ≤ Point.distance a b) (friction dh : ℝ) :
    Steered p q k i a b v (w.move friction dh) where
  sound := h.sound.alike (move_strained w friction dh).alike
  guided := h.guided.strained (move_strained w friction dh)
  bears := h.bears.move friction dh
  still m hm hstill := by
    obtain ⟨x, hx, hxv, hxp⟩ := h.still m hm hstill
    obtain ⟨y, z, hy, hz, hyz⟩ := h.bears.glides h.guided hab friction dh
    cases hx.symm.trans hy
    have hzv : Point.slide z.velocity a b = 0 := by rw [hyz.velocity, hxv, mul_zero]
    exact ⟨z, hz, hzv, by rw [hyz.position, hzv, mul_zero, add_zero, hxp]⟩

theorem struck (h : Steered p q k i a b v w) (ht : t.Sound) (hst : Struck w t) :
    Steered p q k i a b v t where
  sound := ht
  guided r hr hid := by
    rw [hst.spring] at hid ⊢
    exact h.guided r (hst.listed.subset hr) hid
  bears := h.bears.struck h.sound ht hst
  still m hm hstill := by
    rw [hst.body?]
    exact h.still m hm hstill

end Steered

/-- However the frame ends. -/
theorem advance_steered (hw : w.Sound) (hb : Bears p q k i a b w) (hg : Guided i (b - a) w)
    (hab : tiny ≤ Point.distance a b) (dt : ℝ) :
    (advance dt).wp (fun _ t => Steered p q k i a b w t) w := by
  refine advance_invariant (fun t u ht hu => ht.idle hu) (fun t friction dh ht =>
    ht.move hab friction dh) (fun t ht => ?_) ⟨hw, hg, hb, fun m hm hstill => ⟨m, hm, hstill, rfl⟩⟩
    dt
  refine (sweep_spec ht.sound).mono fun _ u => ?_
  rintro ⟨-, hu, hst, -⟩
  exact ht.struck hu.sound hst

end Scene

/-! ### Rails -/

namespace Sketch

/-- The declared rail `r` runs from a node at `a` to one at `b`, which are at rest without springs.
The node `k` is held on it by the spring of the id `i`, and has no other spring. -/
structure Rides (r : Ref) (k i : Id) (a b : Point ℝ) (w : Sketch ℝ) : Prop where
  declared : r ∈ w.declared
  captive : (k, i) ∈ (w.quantity r).captives
  scene : w.toScene.Bears (w.quantity r).a (w.quantity r).b k i a b

/-- From `w` to `t` the captive stays on its rail. It stays the first one, and it stays where it is
along the rail unless it goes along it. -/
structure Carried (r : Ref) (k i : Id) (a b : Point ℝ) (w t : Sketch ℝ) : Prop where
  rides : t.Rides r k i a b
  id : (t.quantity r).id = (w.quantity r).id
  first : (w.quantity r).captives.head? = some (k, i) →
    (t.quantity r).captives.head? = some (k, i)
  still : ∀ m, w.body? (some k) = some m → Point.slide m.velocity a b = 0 →
    ∃ m', t.body? (some k) = some m' ∧ Point.slide m'.velocity a b = 0 ∧
      Point.along m'.position a b = Point.along m.position a b

variable {w t u : Sketch ℝ} {v : Scene ℝ} {r : Ref} {k i : Id} {a b : Point ℝ}

namespace Rides

theorem isNode (hw : w.Rides r k i a b) : w.isNode (some k) := by
  obtain ⟨n, hn, -⟩ := hw.scene.captive
  exact Scene.isNode_of_node? hn

theorem rail (hw : w.Rides r k i a b) (h : w.Sound) : (w.quantity r).kind = .rail :=
  (h.proper r hw.declared).rail_of_mem hw.captive

theorem whole (hw : w.Rides r k i a b) (h : w.Sound) (hbare : w.Bare) : w.Whole r := by
  intro n hn
  rw [Quantity.nodeIds, Quantity.pivot?, hw.rail h, hbare r hw.declared] at hn
  have hends : n = (w.quantity r).a ∨ n = (w.quantity r).b := by simpa using hn
  rcases hends with rfl | rfl
  · exact Scene.isNode_of_node? hw.scene.first
  · exact Scene.isNode_of_node? hw.scene.second

theorem withScene (hw : w.Rides r k i a b)
    (hv : v.Bears (w.quantity r).a (w.quantity r).b k i a b) : (w.withScene v).Rides r k i a b :=
  ⟨hw.declared, hw.captive, hv⟩

/-- Neither the rail nor the captive lacks a node, so that both outlast a pruning. -/
theorem trimmed (hw : w.Rides r k i a b) (h : w.Sound) (hbare : w.Bare) (hu : Trimmed w u) :
    u.Rides r k i a b := by
  have hr : r ∈ u.declared := by
    by_contra hr
    exact hu.dropped r hw.declared hr (hw.whole h hbare)
  have hcaptive := (hu.captives r hr).2 _ hw.captive hw.isNode
  obtain ⟨captives, springIds, lower, upper, e⟩ := hu.kept r hr
  have hscene := hw.scene.struck h.scene hu.sound.scene hu.struck
  refine ⟨hr, hcaptive, ?_⟩
  rw [e]
  exact hscene

theorem owns (hw : w.Rides r k i a b) (h : w.Sound) : w.Owns r i := by
  refine ⟨hw.declared, ?_⟩
  rw [((Quantity.proper_rail (hw.rail h)).1 (h.proper r hw.declared)).1]
  exact List.mem_map.2 ⟨_, hw.captive, rfl⟩

/-- Where rails do not end, a refresh sets the spring of the captive across the rail. -/
theorem guided (hu : u.Rides r k i a b) (h : u.Sound) (hc : u.clamped = false)
    (hv : Scene.Reset u.toScene v (u.ownedIds u.declared) u.Kept) : v.Guided i (b - a) := by
  intro s hs hid
  rw [hv.alike.listed] at hs
  rw [hv.alike.id s hs] at hid
  have hnamed : u.springRef? (some i) = some s := h.scene.springRef?_iff.2 ⟨hs, hid⟩
  have howns := hu.owns h
  obtain ⟨hkind, -⟩ := h.captive_made hu.declared hu.captive hnamed
  obtain ⟨_, _, -, -, hkeeps⟩ := hv.set i (mem_ownedIds.2 ⟨r, howns⟩) s hnamed r howns
  unfold Quantity.Keeps at hkeeps
  rw [hu.rail h, hc] at hkeeps
  obtain ⟨a', b', c, x, ha, hb, -, -, e⟩ := hkeeps
  have hfirst : (u.quantity r).position u.toScene (u.quantity r).a = .ok a := by
    rw [Quantity.position, hu.scene.first]
  have hsecond : (u.quantity r).position u.toScene (u.quantity r).b = .ok b := by
    rw [Quantity.position, hu.scene.second]
  cases ha.symm.trans hfirst
  cases hb.symm.trans hsecond
  rw [e]
  exact ⟨hkind, rfl, rfl⟩

end Rides

namespace Carried

theorem refl (hw : w.Rides r k i a b) : Carried r k i a b w w :=
  ⟨hw, rfl, fun hfirst => hfirst, fun m hm hstill => ⟨m, hm, hstill, rfl⟩⟩

theorem trans (h : Carried r k i a b w t) (h' : Carried r k i a b t u) :
    Carried r k i a b w u where
  rides := h'.rides
  id := h'.id.trans h.id
  first := h'.first ∘ h.first
  still m hm hstill := by
    obtain ⟨x, hx, hxv, hxp⟩ := h.still m hm hstill
    obtain ⟨y, hy, hyv, hyp⟩ := h'.still x hx hxv
    exact ⟨y, hy, hyv, hyp.trans hxp⟩

end Carried

/-- The first captive stays the first. -/
theorem Rides.head?_captives (hw : w.Rides r k i a b) (h : w.Sound) (hbare : w.Bare)
    (hu : Trimmed w u) (htidy : u.Tidy) (hfirst : (w.quantity r).captives.head? = some (k, i)) :
    (u.quantity r).captives.head? = some (k, i) := by
  refine (hu.head?_captives h htidy (hw.trimmed h hbare hu).declared fun c hc => ?_).trans hfirst
  cases hfirst.symm.trans hc
  exact hw.isNode

/-- A refresh moves no node, leaves the captive on its rail and sets its spring across the rail. -/
theorem refresh_carried (h : w.Sound) (hbare : w.Bare) (hw : w.Rides r k i a b)
    (hc : w.clamped = false) :
    (refresh none).wp (fun _ t => Carried r k i a b w t ∧ t.toScene.Guided i (b - a) ∧
      t.body? (some k) = w.body? (some k)) w := by
  refine (refresh_stages h none).mono fun o t => ?_
  rintro ⟨u, v, x, y, ⟨hu, htidy⟩, hv, -, rfl, hnone⟩
  obtain ⟨-, rfl⟩ := hnone rfl
  have hur := hw.trimmed h hbare hu
  have hfirst := hw.head?_captives h hbare hu htidy
  have huc : u.clamped = false := by
    show u.graph.config.railsEnd = false
    rw [hu.struck.config]
    exact hc
  have hbody : (u.withScene y).body? (some k) = w.body? (some k) := by
    show (y.node? _).map Node.body = _
    rw [Scene.node?_congr hv.graph]
    exact hu.struck.body? _
  refine ⟨⟨hur.withScene (hur.scene.congr hv.graph), hu.id_eq hur.declared,
    hfirst, fun m hm hstill => ⟨m, ?_, hstill, rfl⟩⟩,
    hur.guided hu.sound huc hv, hbody⟩
  rw [hbody]
  exact hm

theorem advance_carried (h : w.Sound) (hw : w.Rides r k i a b)
    (hg : w.toScene.Guided i (b - a)) (hab : tiny ≤ Point.distance a b) (dt : ℝ) :
    Carried r k i a b w (w.withScene (Scene.advance dt w.toScene).state) := by
  have ht := Scene.advance_steered h.scene hw.scene hg hab dt
  exact ⟨hw.withScene ht.bears, rfl, id, ht.still⟩

/-- How far along its rail the first captive is, that is what the rail reads. -/
theorem readingOf_rides (h : w.Sound) (hbare : w.Bare) (hw : w.Rides r k i a b)
    (hfirst : (w.quantity r).captives.head? = some (k, i)) {m : Body ℝ}
    (hm : w.body? (some k) = some m) :
    (readingOf (some (w.quantity r).id)).wp
      (fun o _ => o = .ok (Point.along m.position a b)) w := by
  unfold readingOf
  rw [wp_bind]
  refine (prune_spec h).mono fun o u => ?_
  rintro ⟨rfl, hu, htidy⟩
  have hur := hw.trimmed h hbare hu
  obtain ⟨cs, hcs⟩ := List.head?_eq_some_iff.1 (hw.head?_captives h hbare hu htidy hfirst)
  have hnamed : u.quantityRef? (some (w.quantity r).id) = some r := by
    rw [← hu.id_eq hur.declared]
    exact hu.sound.quantityRef?_id hur.declared
  rw [next_ok, wp_bind, wp_needQuantity, hnamed]
  show (u.quantity r).read u.toScene = _
  refine Quantity.read_rail_cons (c := m.position) ?_ ?_ (hur.rail hu.sound) hcs ?_
  · rw [Quantity.position, hur.scene.first]
  · rw [Quantity.position, hur.scene.second]
  · rw [← hu.struck.body?] at hm
    obtain ⟨n, hn, rfl⟩ := Option.map_eq_some_iff.1 hm
    rw [Quantity.position, hn]
    rfl

end Sketch

namespace Bench

variable {w : Bench ℝ} {r : Ref} {k i : Id} {a b : Point ℝ}

theorem frame_carried (h : w.toSketch.Sound) (hbare : w.toSketch.Bare)
    (hw : w.toSketch.Rides r k i a b) (hc : w.graph.config.railsEnd = false)
    (hab : tiny ≤ Point.distance a b) (dt : ℝ) :
    Sketch.Carried r k i a b w.toSketch (frame dt w).state.toSketch := by
  have ht : (refreshed w).toSketch.Sound := (Sketch.refresh_shrunk h none).sound
  obtain ⟨hrefresh, hg, -⟩ := Sketch.refresh_carried h hbare hw hc
  rw [(frame_refreshed h dt).2]
  exact hrefresh.trans (Sketch.advance_carried ht hrefresh.rides hg hab dt)

theorem frames_carried (h : w.toSketch.Sound) (hbare : w.toSketch.Bare)
    (hw : w.toSketch.Rides r k i a b) (hc : w.graph.config.railsEnd = false)
    (hab : tiny ≤ Point.distance a b) (dts : List ℝ) :
    Sketch.Carried r k i a b w.toSketch (after (dts.map .frame) w).toSketch := by
  induction dts generalizing w with
  | nil => exact .refl hw
  | cons dt dts ih =>
    have ho : Sketch.Onward w.toSketch (frame dt w).state.toSketch :=
      (Sketch.refresh_shrunk h (some dt)).toOnward
    have hframe := frame_carried h hbare hw hc hab dt
    exact hframe.trans (ih ho.sound (ho.bare hbare) hframe.rides (ho.scene.config ▸ hc))

theorem frames_numeric (h : w.toSketch.Sound) (hnum : w.Numeric) (dts : List ℝ) :
    (after (dts.map .frame) w).Numeric := by
  induction dts generalizing w with
  | nil => exact hnum
  | cons dt dts ih =>
    exact ih (Sketch.refresh_shrunk h (some dt)).sound (Sketch.refresh_numeric h hnum (some dt))

/-- The sub-steps of a frame that succeeds, from the places that the nodes had before it to those
that they have after it. -/
theorem frame_glides (h : w.toSketch.Sound) (hbare : w.toSketch.Bare)
    (hw : w.toSketch.Rides r k i a b) (hc : w.graph.config.railsEnd = false)
    (hab : tiny ≤ Point.distance a b) {dt friction : ℝ} {steps : Number ℝ} {n : ℕ} (hdt : 0 < dt)
    (hsteps : w.graph.config.stepping.stepsFor dt = .ok (.number steps))
    (hn : steps.times = .ok n) (hf : w.graph.config.stepping.friction = some friction)
    (hok : (frame dt w).outcome = .ok ()) :
    let v := (refreshed w).toScene
    (Scene.advanceBy dt 0 v).state.body? (some k) = w.body? (some k) ∧
      (∀ j < n, ∃ m m', (Scene.advanceBy dt j v).state.body? (some k) = some m ∧
        (Scene.advanceBy dt (j + 1) v).state.body? (some k) = some m' ∧
        Body.Glides friction (dt / n) a b m m') ∧
      (Scene.advanceBy dt n v).state.body? (some k) = (frame dt w).state.body? (some k) := by
  intro v
  have ht : Sketch.Onward w.toSketch (refreshed w).toSketch :=
    (Sketch.refresh_shrunk h none).toOnward
  have hv : v.Sound := ht.sound.scene
  obtain ⟨hrefresh, hg, hbody⟩ := Sketch.refresh_carried h hbare hw hc
  obtain ⟨hsame, hstate⟩ := frame_refreshed h dt
  have hadvance : (Scene.advance dt v).outcome = .ok () := hsame.symm.trans hok
  have hdt' : ¬ dt ≤ 0.0 := not_le_zero hdt
  rw [← ht.scene.config] at hsteps hf
  obtain ⟨hpasses, hstruck⟩ := Scene.advanceBy_of_advance hv hdt' hsteps hn hadvance
  refine ⟨?start, fun j hj => ?step, ?finish⟩
  case start =>
    rw [Scene.body?, Scene.node?_congr (Scene.advanceBy_zero_graph v dt)]
    exact hbody
  case step =>
    have hcount : steps.val = n := Number.val_eq_of_pos hn (Nat.zero_lt_of_lt hj)
    obtain ⟨x, hx⟩ := Scene.exists_divide_of_advance hdt' hsteps hadvance
    have hlength : v.graph.config.stepping.lengthFor dt = .ok (dt / n) := by
      rw [Stepping.lengthFor_eq hsteps, ← hcount, (divide_eq_ok_iff.1 hx).2]
      exact hx
    exact hrefresh.rides.scene.advanceBy_glides hg hab (hpasses (j + 1) hj) hlength hf
  case finish =>
    rw [hstate]
    exact (hstruck.body? _).symm

/-- Rails do not end. After every run, what rides on a rail between two nodes at rest does so for
ever: along the rail each sub-step of each frame slows it down by friction, moves it by the velocity
that is left and does nothing else. If it does not go along the rail it stays where it is along it,
and so does what the rail reads if it is the first one there. With a cap, and springs whose
constants are numbers, all these frames succeed. -/
theorem glided_after_run (c : Config ℝ) (hc : c.railsEnd = false) (springs : Arena (Spring ℝ))
    (quantities : Arena (Quantity ℝ)) (ops : List (Op ℝ)) (r : Ref) (k i : Id) (a b : Point ℝ)
    (dts : List ℝ) :
    let w := after ops (empty c springs quantities)
    let t := after (dts.map .frame) w
    let v := (refreshed t).toScene
    w.toSketch.Rides r k i a b → tiny ≤ Point.distance a b →
      t.toSketch.Rides r k i a b ∧
      (∀ dt steps n friction, 0 < dt → c.stepping.stepsFor dt = .ok (.number steps) →
        steps.times = .ok n → c.stepping.friction = some friction →
        ((∃ l, c.stepping.lengthCap = some l) → w.Numeric → 0 < n →
          (frame dt t).outcome = .ok ()) ∧
        ((frame dt t).outcome = .ok () →
          (Scene.advanceBy dt 0 v).state.body? (some k) = t.body? (some k) ∧
          (∀ j < n, ∃ m m', (Scene.advanceBy dt j v).state.body? (some k) = some m ∧
            (Scene.advanceBy dt (j + 1) v).state.body? (some k) = some m' ∧
            Body.Glides friction (dt / n) a b m m') ∧
          (Scene.advanceBy dt n v).state.body? (some k) =
            (frame dt t).state.body? (some k))) ∧
      ∀ m, w.body? (some k) = some m → Point.slide m.velocity a b = 0 →
        (∃ m', t.body? (some k) = some m' ∧ Point.slide m'.velocity a b = 0 ∧
          Point.along m'.position a b = Point.along m.position a b) ∧
        ((w.quantity r).captives.head? = some (k, i) →
          ((Sketch.readingOf (some (w.quantity r).id)).onSketch t).outcome =
            .ok (Point.along m.position a b)) := by
  intro w t v hw hab
  have h : w.toSketch.Sound := sound_after c springs quantities ops
  have hbare : w.toSketch.Bare := bare_after c springs quantities ops
  have hconfig : w.graph.config = c := config_after c springs quantities ops
  have hframes : Sketch.Onward w.toSketch t.toSketch := after_onward h (dts.map .frame)
  have htbare : t.toSketch.Bare := hframes.bare hbare
  have htconfig : t.graph.config = c := hframes.scene.config.trans hconfig
  have hcarried : Sketch.Carried r k i a b w.toSketch t.toSketch :=
    frames_carried h hbare hw (hconfig ▸ hc) hab dts
  refine ⟨hcarried.rides, ?frame, fun m hm hstill => ?still⟩
  case frame =>
    intro dt steps n friction hdt hsteps hn hf
    rw [← htconfig] at hsteps hf hc ⊢
    refine ⟨fun hcap hnum hpos => ?_, fun hok => ?_⟩
    · exact frame_ok hframes.sound (frames_numeric h hnum dts)
        (Stepping.splits_of_pos hdt hcap ⟨friction, hf⟩ hsteps hn hpos)
    · exact frame_glides hframes.sound htbare hcarried.rides hc hab hdt hsteps hn hf hok
  case still =>
    obtain ⟨m', hm', hslide, halong⟩ := hcarried.still m hm hstill
    refine ⟨⟨m', hm', hslide, halong⟩, fun hfirst => ?_⟩
    have hread := Sketch.readingOf_rides hframes.sound htbare hcarried.rides
      (hcarried.first hfirst) hm'
    rw [hcarried.id] at hread
    rw [← halong]
    exact hread

/-- The rail reads the middle of itself, frame by frame. -/
theorem glided_aside :
    let w := after asideRun (empty default {} {} : Bench ℝ)
    let t := after ([1, 1].map .frame) w
    w.toSketch.Rides 0 2 0 ⟨0, 0⟩ ⟨10, 0⟩ ∧ (frame 1 t).outcome = .ok () ∧
      ((Sketch.readingOf (some 0)).onSketch t).outcome = .ok 5 := by
  intro w t
  have hcaptives : (w.quantity 0).captives = [(2, 0)] := rfl
  have hw : w.toSketch.Rides 0 2 0 ⟨0, 0⟩ ⟨10, 0⟩ := by
    refine ⟨List.mem_singleton_self 0, ?_, rfl, rfl, _, rfl, ?_⟩
    · rw [hcaptives]
      exact List.mem_singleton_self _
    · exact fun j hj => List.mem_singleton.1 hj
  obtain ⟨-, hframe, hstill⟩ := glided_after_run default rfl {} {} asideRun 0 2 0 ⟨0, 0⟩ ⟨10, 0⟩
    [1, 1] hw tiny_le_ten
  have hnum : w.Numeric :=
    Scene.numeric_of_members_eq (show w.toScene.members = [w.spring 0] from rfl) rfl
  have hok : (frame 1 t).outcome = .ok () :=
    (hframe 1 (.whole 25) 25 5.0 one_pos rfl rfl rfl).1 ⟨10.0, rfl⟩ hnum (by norm_num)
  have hslide : Point.slide (Point.zero : Point ℝ) ⟨0, 0⟩ ⟨10, 0⟩ = 0 := by
    rw [Point.slide, Point.zero_dot, zero_div]
  have hread := (hstill ⟨2, ⟨5, 5⟩, Point.zero⟩ rfl hslide).2 rfl
  have hmiddle : Point.along (⟨5, 5⟩ : Point ℝ) ⟨0, 0⟩ ⟨10, 0⟩ = 5 := by
    have hten : Point.distance (⟨0, 0⟩ : Point ℝ) ⟨10, 0⟩ = 10 := by
      rw [Point.distance_eq, Real.sqrt_eq_iff_mul_self_eq_of_pos (by norm_num)]
      norm_num
    rw [Point.along_eq tiny_le_ten, hten]
    norm_num [Point.dot]
  rw [hmiddle] at hread
  exact ⟨hw, hok, hread⟩

end Bench

end Linkage
