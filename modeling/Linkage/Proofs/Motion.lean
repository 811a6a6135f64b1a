import Linkage.Proofs.Bench
import Mathlib.Data.List.Forall2

/-!
# Motion by the list of springs alone

A `Motion` holds what a frame is about and nothing else: the springs in the order of the list, and
where every node is and how fast. It moves by the book. All springs look at the bodies as they
stand, then all bodies move at once, each under friction and the springs that have an endpoint at
it, in the order of the list.

A scene moves like its motion (`Scene.advance_motion`): the ids that nodes keep of the springs at
them, the look-ups by id and the order in which nodes are moved make no difference.
-/

namespace Linkage

/-- A node without the ids of the springs at it. -/
structure Body (K : Type) where
  id : Id
  position : Point K
  velocity : Point K

structure Motion (K : Type) where
  springs : List (Spring K)
  bodies : List (Body K)

theorem mapM_eq_ok_iff {ε α β : Type} {g : α → Except ε β} {l : List α} {l' : List β} :
    l.mapM g = .ok l' ↔ List.Forall₂ (fun a b => g a = .ok b) l l' := by
  induction l generalizing l' with
  | nil => simp [pure, Except.pure, eq_comm]
  | cons a l ih =>
    rw [List.mapM_cons, List.forall₂_cons_left_iff]
    simp only [← ih]
    cases g a with
    | error e => simp [bind, Except.bind]
    | ok b => cases l.mapM g <;> simp [bind, Except.bind, pure, Except.pure, eq_comm]

theorem exists_mem_of_forall₂ {α β : Type} {R : α → β → Prop} {l : List α} {l' : List β}
    (h : List.Forall₂ R l l') {b : β} (hb : b ∈ l') : ∃ a ∈ l, R a b := by
  induction h with
  | nil => cases hb
  | cons hab _ ih =>
    rcases List.mem_cons.1 hb with rfl | hb
    · exact ⟨_, List.mem_cons_self, hab⟩
    · obtain ⟨a, ha, hab⟩ := ih hb
      exact ⟨a, List.mem_cons_of_mem _ ha, hab⟩

theorem exists_forall₂ {α β : Type} {R : α → β → Prop} {l : List α} (h : ∀ a ∈ l, ∃ b, R a b) :
    ∃ l', List.Forall₂ R l l' := by
  induction l with
  | nil => exact ⟨[], .nil⟩
  | cons a l ih =>
    obtain ⟨ha, hl⟩ := List.forall_mem_cons.1 h
    obtain ⟨b, hb⟩ := ha
    obtain ⟨l', hl'⟩ := ih hl
    exact ⟨b :: l', .cons hb hl'⟩

variable {K : Type}

def Node.body (n : Node K) : Body K := ⟨n.id, n.position, n.velocity⟩

variable [Scalar K]

namespace Motion

def position (m : Motion K) (k : Key) : Except (Failure K) (Point K) :=
  match m.bodies.find? fun b => some b.id == k with
  | some b => .ok b.position
  | none => .error .endpointLost

def ends (m : Motion K) (s : Spring K) : Except (Failure K) (Point K × Point K) := do
  let a ← match s.a with
    | .point p => pure p
    | .node i => m.position (some i)
  let b ← m.position s.b
  return (a, b)

/-- Every spring looks at its two ends, all of them at the same bodies. -/
def look (m : Motion K) (f : Spring K → Point K → Point K → Except (Failure K) (Spring K)) :
    Except (Failure K) (Motion K) := do
  let springs ← m.springs.mapM fun s => (m.ends s).bind fun p => f s p.1 p.2
  return { m with springs := springs }

omit [Scalar K] in
theorem look_eq_ok_iff {m m' : Motion K}
    {f : Spring K → Point K → Point K → Except (Failure K) (Spring K)} :
    m.look f = .ok m' ↔ m'.bodies = m.bodies ∧
      List.Forall₂ (fun s s' => ∃ p, m.ends s = .ok p ∧ f s p.1 p.2 = .ok s')
        m.springs m'.springs := by
  simp only [← bind_eq_ok_iff, ← mapM_eq_ok_iff, look]
  cases m' with
  | mk springs bodies =>
    cases m.springs.mapM fun s => (m.ends s).bind fun p => f s p.1 p.2 <;>
      simp [bind, Except.bind, pure, Except.pure, and_comm, eq_comm]

omit [Scalar K] in
/-- Every spring that is there afterwards is one that has looked. -/
theorem exists_of_look {m m' : Motion K}
    {f : Spring K → Point K → Point K → Except (Failure K) (Spring K)} (e : m.look f = .ok m')
    {s' : Spring K} (hs : s' ∈ m'.springs) :
    ∃ s ∈ m.springs, ∃ p, m.ends s = .ok p ∧ f s p.1 p.2 = .ok s' :=
  exists_mem_of_forall₂ (look_eq_ok_iff.1 e).2 hs

omit [Scalar K] in
/-- Springs whose ends are there can look, unless it is for something else that they fail. -/
theorem exists_look {m : Motion K}
    {f : Spring K → Point K → Point K → Except (Failure K) (Spring K)}
    (h : ∀ s ∈ m.springs, ∃ p, m.ends s = .ok p ∧ ∃ s', f s p.1 p.2 = .ok s') :
    ∃ m', m.look f = .ok m' := by
  obtain ⟨ss, hss⟩ := exists_forall₂ fun s hs =>
    have ⟨p, hp, s', hs'⟩ := h s hs
    ⟨s', (⟨p, hp, hs'⟩ : ∃ p, m.ends s = .ok p ∧ f s p.1 p.2 = .ok s')⟩
  exact ⟨⟨ss, m.bodies⟩, look_eq_ok_iff.2 ⟨rfl, hss⟩⟩

/-- Friction, then the springs with an endpoint at the body, in the order of the list. -/
def force (m : Motion K) (friction : K) (b : Body K) : Point K :=
  (m.springs.filter (·.contains (some b.id))).foldl (fun f s => f + s.forceAt (some b.id))
    (-friction * b.velocity)

/-- All bodies move at once. -/
def move (m : Motion K) (friction h : K) : Motion K :=
  { m with bodies := m.bodies.map fun b =>
      let v := b.velocity + h * m.force friction b
      { b with velocity := v, position := b.position + h * v } }

def substep (c : Stepping K) (h : K) (m : Motion K) : Except (Failure K) (Motion K) :=
  (m.look fun s a b => (asNumber c.lengthCap).bind (s.strained a b h)).bind fun m =>
    if m.bodies.isEmpty then .ok m else (asNumber c.friction).map (m.move · h)

def substeps (c : Stepping K) (h : K) : Nat → Motion K → Except (Failure K) (Motion K)
  | 0, m => .ok m
  | n + 1, m => (m.substep c h).bind (substeps c h n)

def sweep (m : Motion K) : Motion K := { m with springs := m.springs.filter fun s => !s.expired }

def advance (c : Stepping K) (dt : K) (m : Motion K) : Except (Failure K) (Motion K) :=
  if dt ≤ 0.0 then .ok m
  else
    ((c.stepsFor dt).bind fun v => asNumber v.number?).bind fun steps =>
    (divide dt steps.val).bind fun h =>
    (m.look fun s a b => (asNumber c.lengthCap).map (s.relaxed a b)).bind fun m =>
    steps.times.bind fun n =>
    (m.substeps c h n).map sweep

end Motion

namespace Scene

open Act

variable {w t : Scene K} {r : Ref} {x : Ref → Act K (Scene K) Unit}
  {f : Spring K → Point K → Point K → Except (Failure K) (Spring K)}

def motion (w : Scene K) : Motion K := ⟨w.members, w.graph.nodes.map Node.body⟩

theorem motion_position (w : Scene K) (k : Key) : w.motion.position k = w.position k := by
  unfold Motion.position Scene.position Scene.node? motion
  rw [List.find?_map, Function.comp_def]
  show (match (w.graph.nodes.find? fun n => some n.id == k).map Node.body with
    | some b => Except.ok b.position
    | none => Except.error Failure.endpointLost) = _
  cases w.graph.nodes.find? fun n => some n.id == k <;> rfl

theorem motion_ends (w : Scene K) (s : Spring K) : w.motion.ends s = w.ends s := by
  unfold Motion.ends Scene.ends
  cases s.a with
  | point p => simp only [motion_position]
  | node i => simp only [motion_position]

/-! ### Springs look at their ends -/

/-- A spring looks at nodes only, so it does not matter which springs have looked before it. -/
theorem Looks.forEach (hx : Looks x f) {rs : List Ref} (hrs : rs.Nodup) (w : Scene K)
    (hlt : ∀ r ∈ rs, r < w.springs.size) :
    (Act.forEach x rs).wp
      (fun o t => t.graph = w.graph ∧ (∀ r ∉ rs, t.spring r = w.spring r) ∧
        o.map (fun _ => rs.map t.spring) =
          (rs.map w.spring).mapM fun s => (w.ends s).bind fun p => f s p.1 p.2) w := by
  induction rs generalizing w with
  | nil => exact ⟨rfl, fun _ _ => rfl, rfl⟩
  | cons r rs ih =>
    obtain ⟨hr, hrs⟩ := List.nodup_cons.1 hrs
    rw [wp_forEach_cons, List.map_cons, List.mapM_cons]
    refine ((hx.idle w r).and ((hx.other w r).and (hx.self (hlt r (by simp))))).mono fun o u => ?_
    rintro ⟨hu, hother, hself⟩
    cases o with
    | error e =>
      exact ⟨hu.graph, fun r' hr' => hother r' fun e => hr' (by simp [e]), by
        rw [← hself]
        rfl⟩
    | ok _ =>
      have hrest : rs.map u.spring = rs.map w.spring :=
        List.map_congr_left fun r' hr' => hother r' fun e => hr (e ▸ hr')
      have hends : u.ends = w.ends := funext hu.ends_eq
      rw [next_ok]
      refine (ih hrs u fun r' hr' => ?_).mono fun o t => ?_
      · exact Nat.lt_of_lt_of_eq (hlt r' (by simp [hr'])) hu.strained.size.symm
      rintro ⟨hg, hkept, hmap⟩
      refine ⟨hg.trans hu.graph, fun r' hr' => ?_, ?_⟩
      · rw [List.mem_cons, not_or] at hr'
        exact (hkept r' hr'.2).trans (hother r' hr'.1)
      · rw [hrest, hends] at hmap
        rw [← hself, ← hmap, List.map_cons, hkept r hr]
        cases o <;> rfl

theorem Looks.motion (hx : Looks x f) (h : w.Sound) :
    (Act.forEach x w.graph.listed).wp
      (fun o t => o.map (fun _ => t.motion) = w.motion.look f) w := by
  refine (hx.forEach h.listed_nodup w h.listed_lt).mono fun o t => ?_
  rintro ⟨hg, -, hmap⟩
  have hmembers : t.members = w.graph.listed.map t.spring := by rw [members, hg]
  have hlook : w.motion.look f = (o.map fun _ => t.members).map fun ss =>
      { w.motion with springs := ss } := by
    unfold Motion.look
    simp only [motion_ends]
    rw [hmembers, hmap]
    rfl
  rw [hlook, Scene.motion, hg]
  cases o <;> rfl

theorem relax_motion (h : w.Sound) (cap : Option K) :
    (relax cap).wp
      (fun o t => o.map (fun _ => t.motion) =
        w.motion.look fun s a b => (asNumber cap).map (s.relaxed a b)) w := by
  unfold relax
  rw [wp_bind, wp_read]
  exact (looks_relaxed cap).motion h

theorem strain_motion (h : w.Sound) (dh : K) (cap : Option K) :
    (strain dh cap).wp
      (fun o t => o.map (fun _ => t.motion) =
        w.motion.look fun s a b => (asNumber cap).bind (s.strained a b dh)) w := by
  unfold strain
  rw [wp_bind, wp_read]
  exact (looks_strained dh cap).motion h

/-! ### Nodes move -/

theorem springOf_eq (h : w.Sound) (hr : r ∈ w.graph.listed) {i : Id}
    (hi : (w.spring r).id = some i) : w.springOf i = some (w.spring r) := by
  unfold springOf
  cases e : w.members.reverse.find? fun s => s.id == some i with
  | none =>
    have := List.find?_eq_none.1 e (w.spring r) (by simpa [members] using ⟨r, hr, rfl⟩)
    simp [hi] at this
  | some s =>
    have hs := List.mem_of_find?_eq_some e
    rw [List.mem_reverse, members, List.mem_map] at hs
    obtain ⟨r', hr', rfl⟩ := hs
    have hid : (w.spring r').id = some i := by simpa using List.find?_some e
    rw [h.eq_of_id_eq hr' hr (hid.trans hi.symm)]

/-- To go through the ids kept at a node is to go through the springs at it. -/
theorem foldl_springOf (h : w.Sound) (g : Point K → Spring K → Point K) (rs : List Ref)
    (hrs : ∀ r ∈ rs, r ∈ w.graph.listed) (is : List Id)
    (his : is.map some = rs.map fun r => (w.spring r).id) (a : Point K) :
    is.foldl (fun f i => match w.springOf i with
      | some s => g f s
      | none => f) a = (rs.map w.spring).foldl g a := by
  induction rs generalizing is a with
  | nil =>
    cases is with
    | nil => rfl
    | cons i is => cases his
  | cons r rs ih =>
    cases is with
    | nil => cases his
    | cons i is =>
      obtain ⟨hi, his⟩ := List.cons.inj his
      rw [List.foldl_cons, List.map_cons, List.foldl_cons]
      simp only [springOf_eq h (hrs r (by simp)) hi.symm]
      exact ih (fun r' hr' => hrs r' (by simp [hr'])) is his _

theorem netForce_motion (h : w.Sound) {n : Node K} (hn : n ∈ w.graph.nodes) (friction : K) :
    n.netForce w.springOf friction = w.motion.force friction n.body := by
  have htouching : w.members.filter (·.contains (some n.id)) =
      (w.touching (some n.id)).map w.spring := by
    rw [members, List.filter_map]
    rfl
  unfold Node.netForce Motion.force
  show _ = (w.members.filter (·.contains (some n.id))).foldl _ _
  rw [htouching]
  exact foldl_springOf h _ _ (fun r hr => (mem_touching.1 hr).1) _ (h.attached n hn) _

theorem move_motion (h : w.Sound) (friction dh : K) :
    (w.move friction dh).motion = w.motion.move friction dh := by
  unfold motion move mapNodes Motion.move
  congr 1
  rw [List.map_map, List.map_map]
  refine List.map_congr_left fun n hn => ?_
  show (n.step (n.netForce w.springOf friction) dh).body = _
  rw [netForce_motion h hn]
  rfl

omit [Scalar K] in
theorem mapNodes_congr {f g : Node K → Node K} (h : ∀ n ∈ w.graph.nodes, f n = g n) :
    w.mapNodes f = w.mapNodes g := by
  unfold mapNodes
  rw [List.map_congr_left h]

omit [Scalar K] in
theorem mapNodes_mapNodes (f g : Node K → Node K) :
    (w.mapNodes f).mapNodes g = w.mapNodes (g ∘ f) := by
  unfold mapNodes
  rw [List.map_map]

/-- Nodes that move one after another, each under the springs as they are known by then. -/
def moveEach (friction h : K) (is : List Id) (w : Scene K) : Scene K :=
  is.foldl (fun u i => u.changeNode i (·.moved u.springOf friction h)) w

theorem moveEach_eq (friction h : K) {is : List Id} (his : is.Nodup) (w : Scene K) :
    moveEach friction h is w =
      w.mapNodes fun n => if n.id ∈ is then n.moved w.springOf friction h else n := by
  induction is generalizing w with
  | nil =>
    rw [mapNodes_congr (g := id) fun n _ => by simp, mapNodes, List.map_id]
    rfl
  | cons i is ih =>
    obtain ⟨hi, his⟩ := List.nodup_cons.1 his
    let u := w.changeNode i (·.moved w.springOf friction h)
    have hstep : moveEach friction h (i :: is) w = moveEach friction h is u := rfl
    -- no node has to do with what a spring id stands for
    have hsprings : u.springOf = w.springOf := rfl
    rw [hstep, ih his, hsprings]
    refine (mapNodes_mapNodes _ _).trans (mapNodes_congr fun n _ => ?_)
    rw [Function.comp_apply]
    by_cases hn : n.id = i
    · have hid : (n.moved w.springOf friction h).id = i := hn
      simp [hn, hid, hi]
    · simp [hn]

/-- That nodes move one after another makes no difference. -/
theorem move_eq_moveEach (h : w.Sound) (friction dh : K) :
    w.move friction dh = moveEach friction dh (w.graph.nodes.map Node.id) w := by
  rw [moveEach_eq friction dh h.nodeIds_nodup]
  refine mapNodes_congr fun n hn => ?_
  rw [if_pos (List.mem_map_of_mem hn)]

/-! ### The whole frame -/

theorem substep_motion (h : w.Sound) (c : Stepping K) (dh : K) :
    (substep c dh).wp (fun o t => o.map (fun _ => t.motion) = w.motion.substep c dh) w := by
  unfold substep Motion.substep
  rw [wp_bind]
  refine ((strain_motion h dh c.lengthCap).and (strain_strained w dh _)).mono fun o t => ?_
  rintro ⟨hm, ht⟩
  rw [← hm]
  cases o with
  | error e => rfl
  | ok _ =>
    have hempty : t.motion.bodies.isEmpty = t.graph.nodes.isEmpty := by simp [motion]
    simp only [next_ok, wp_bind, wp_read, wp_ite, wp_ofExcept]
    simp only [Except.map, Except.bind, hempty]
    split
    · exact rfl
    · cases asNumber c.friction with
      | error e => exact rfl
      | ok friction => exact congrArg Except.ok (move_motion (h.alike ht.alike) friction dh)

theorem times_motion (h : w.Sound) (c : Stepping K) (dh : K) (n : Nat) :
    (times n (substep c dh)).wp
      (fun o t => o.map (fun _ => t.motion) = w.motion.substeps c dh n) w := by
  induction n generalizing w with
  | zero => exact rfl
  | succ n ih =>
    rw [times_succ, wp_bind, Motion.substeps]
    refine ((substep_motion h c dh).and (substep_strained w c dh)).mono fun o t => ?_
    rintro ⟨hm, ht⟩
    rw [← hm]
    cases o with
    | error e => exact rfl
    | ok _ => exact ih (h.alike ht.alike)

omit [Scalar K] in
theorem Struck.bodies (h : Struck w t) :
    t.graph.nodes.map Node.body = w.graph.nodes.map Node.body := by
  have := congrArg (List.map Node.body) h.places
  rwa [List.map_map, List.map_map] at this

theorem sweep_motion (h : w.Sound) :
    (sweep : Act K (Scene K) Unit).wp (fun o t => o = .ok () ∧ t.motion = w.motion.sweep) w := by
  refine (sweep_spec h).mono fun o t => ?_
  rintro ⟨rfl, -, hst, hl⟩
  refine ⟨rfl, ?_⟩
  have hspring : t.spring = w.spring := funext hst.spring
  have hsprings : t.members = w.members.filter fun s => !s.expired := by
    rw [members, members, hl, hspring, List.filter_map]
    rfl
  unfold motion Motion.sweep
  rw [hsprings, hst.bodies]

/-- A frame does to a scene what it does to the motion of the scene. -/
theorem advance_motion (h : w.Sound) (dt : K) :
    (advance dt).wp
      (fun o t => o.map (fun _ => t.motion) = w.motion.advance w.graph.config.stepping dt) w := by
  unfold advance Motion.advance
  rw [wp_ite]
  split
  · exact rfl
  simp only [wp_bind, wp_read, next_ok, wp_ofExcept]
  cases (w.graph.config.stepping.stepsFor dt).bind fun v => asNumber v.number? with
  | error e => exact rfl
  | ok steps =>
    simp only [next_ok, wp_bind, wp_ofExcept]
    cases hdh : divide dt steps.val with
    | error e => simp only [next_error, Except.bind, hdh, Except.map]
    | ok dh =>
      simp only [next_ok, wp_bind]
      refine ((relax_motion h _).and (relax_strained w _)).mono fun o t => ?_
      rintro ⟨hm, ht⟩
      simp only [Except.bind, hdh]
      rw [← hm]
      cases o with
      | error e => exact rfl
      | ok _ =>
        simp only [next_ok, wp_bind, wp_ofExcept]
        cases steps.times with
        | error e => exact rfl
        | ok n =>
          simp only [next_ok, wp_bind]
          refine ((times_motion (h.alike ht.alike) _ dh n).and
            (times_strained t _ dh n)).mono fun o u => ?_
          rintro ⟨hm', hu⟩
          simp only [Except.map]
          rw [← hm']
          cases o with
          | error e => exact rfl
          | ok _ =>
            simp only [next_ok, wp_bind]
            refine (sweep_motion ((h.alike ht.alike).alike hu.alike)).mono fun o v => ?_
            rintro ⟨rfl, hv⟩
            simp only [next_ok, wp_read, wp_bind, wp_report, Except.map]
            rw [hv]

end Scene

/-- After every run a frame of the scene ends where the motion of the scene ends, or fails as it
does. Within the frame, nodes that move one after another move as nodes that move at once. -/
theorem Bench.motion_after_run (c : Config K) (springs : Arena (Spring K))
    (quantities : Arena (Quantity K)) (ops : List (Op K)) (dt : K) :
    let w := (after ops (empty c springs quantities)).toScene
    ((Scene.advance dt w).outcome.map fun _ => (Scene.advance dt w).state.motion) =
        w.motion.advance w.graph.config.stepping dt ∧
      ∀ u, Scene.Strained w u → ∀ friction h,
        u.move friction h = Scene.moveEach friction h (u.graph.nodes.map Node.id) u := by
  intro w
  have hw : w.Sound := (sound_after c springs quantities ops).scene
  exact ⟨Scene.advance_motion hw dt, fun u hu friction h =>
    Scene.move_eq_moveEach (hw.alike hu.alike) friction h⟩

end Linkage
