import Linkage.Proofs.Rest
import Linkage.Proofs.Failing

/-!
# Frames partway

`advanceTo dt j` is a frame up to the moment in its sub-step `j`, counted from zero, when all
springs have looked at their ends and no node has moved yet. A frame passes through these moments
one after another (`advanceTo_succ`, `advance_eq`).

The strain of a spring at one of them comes from its strain at the one before; at the first one it
comes from the relaxed spring (`advanceTo_succ_spec`, `advanceTo_zero_spec`).
-/

namespace Linkage

open Act

variable {K : Type} [Scalar K]

/-- The length of each sub-step. -/
def Stepping.lengthFor (c : Stepping K) (dt : K) : Except (Failure K) K :=
  ((c.stepsFor dt).bind fun v => asNumber v.number?).bind fun steps => divide dt steps.val

theorem Stepping.lengthFor_eq {c : Stepping K} {dt : K} {steps : Number K}
    (h : c.stepsFor dt = .ok (.number steps)) : c.lengthFor dt = divide dt steps.val := by
  rw [lengthFor, h]
  rfl

/-- What a spring does at the start of a frame. -/
def Spring.relaxing (cap : Option K) (s : Spring K) (a b : Point K) :
    Except (Failure K) (Spring K) :=
  (asNumber cap).map (s.relaxed a b)

/-- What a spring does in a sub-step of length `h`. -/
def Spring.straining (h : K) (cap : Option K) (s : Spring K) (a b : Point K) :
    Except (Failure K) (Spring K) :=
  (asNumber cap).bind (s.strained a b h)

theorem Spring.relaxing_eq_ok_iff {cap : Option K} {s s' : Spring K} {a b : Point K} :
    relaxing cap s a b = .ok s' ↔ ∃ l, cap = some l ∧ s.relaxed a b l = s' := by
  simp only [relaxing, map_eq_ok_iff, asNumber_eq_ok_iff]

theorem Spring.straining_eq_ok_iff {h : K} {cap : Option K} {s s' : Spring K} {a b : Point K} :
    straining h cap s a b = .ok s' ↔ ∃ l, cap = some l ∧ s.strained a b h l = .ok s' := by
  simp only [straining, bind_eq_ok_iff, asNumber_eq_ok_iff]

def Motion.advanceTo (c : Stepping K) (dt : K) (j : Nat) (m : Motion K) :
    Except (Failure K) (Motion K) :=
  (c.lengthFor dt).bind fun h =>
    (m.look (Spring.relaxing c.lengthCap)).bind fun m =>
      (m.substeps c h j).bind fun m => m.look (Spring.straining h c.lengthCap)

namespace Scene

open Spring

variable {w : Scene K} {dt h : K}

/-- What is left of a sub-step when all springs have looked. -/
def coast (c : Stepping K) (h : K) : Act K (Scene K) Unit := do
  if (← read).graph.nodes.isEmpty then pure ()
  else
    let friction ← ofExcept (asNumber c.friction)
    change (·.move friction h)

def advanceTo (dt : K) (j : Nat) : Act K (Scene K) Unit := do
  let c := (← read).graph.config.stepping
  let h ← ofExcept (c.lengthFor dt)
  relax c.lengthCap
  times j (substep c h)
  strain h c.lengthCap

/-- What is left of a frame then, if `k` more sub-steps are to come. -/
def advanceOn (c : Stepping K) (dt h : K) (steps : Number K) (k : Nat) :
    Act K (Scene K) Unit := do
  coast c h
  times k (substep c h)
  sweep
  let w ← read
  report (.frame dt steps w.graph.nodes.length w.graph.listed.length)

variable {j n : Nat} {steps : Number K}

theorem substep_eq (c : Stepping K) (h : K) :
    substep c h = (do strain h c.lengthCap; coast c h) := rfl

theorem advanceTo_eq (hh : w.graph.config.stepping.lengthFor dt = .ok h) (j : Nat) :
    advanceTo dt j w = (do
      relax w.graph.config.stepping.lengthCap
      times j (substep w.graph.config.stepping h)
      strain h w.graph.config.stepping.lengthCap : Act K (Scene K) Unit) w := by
  unfold advanceTo
  rw [read_bind, hh, ofExcept_bind]

/-- From one sub-step to the next. -/
theorem advanceTo_succ (hh : w.graph.config.stepping.lengthFor dt = .ok h) (j : Nat) :
    advanceTo dt (j + 1) w = (do
      advanceTo dt j
      coast w.graph.config.stepping h
      strain h w.graph.config.stepping.lengthCap : Act K (Scene K) Unit) w := by
  rw [advanceTo_eq hh, bind_congr_left (advanceTo_eq hh j)]
  simp only [times_add _ j 1, times_one, substep_eq, bind_assoc]

/-- A frame of positive length passes through each of its sub-steps. -/
theorem advance_eq (hdt : ¬ dt ≤ 0.0)
    (hsteps : w.graph.config.stepping.stepsFor dt = .ok (.number steps))
    (hn : steps.times = .ok n) (hh : divide dt steps.val = .ok h) (hj : j < n) :
    advance dt w = (do
      advanceTo dt j
      advanceOn w.graph.config.stepping dt h steps (n - 1 - j) : Act K (Scene K) Unit) w := by
  have hlength : w.graph.config.stepping.lengthFor dt = .ok h :=
    (Stepping.lengthFor_eq hsteps).trans hh
  obtain ⟨k, rfl⟩ := Nat.exists_eq_add_of_lt hj
  have hk : j + k + 1 - 1 - j = k := by omega
  have htimes : times (j + k + 1) (substep w.graph.config.stepping h) = (do
      times j (substep w.graph.config.stepping h)
      substep w.graph.config.stepping h
      times k (substep w.graph.config.stepping h)) := by
    rw [Nat.add_assoc, times_add, times_succ]
  rw [bind_congr_left (advanceTo_eq hlength j), hk, advance, if_neg hdt, read_bind, hsteps]
  show (ofExcept (.ok steps) >>= _) w = _
  rw [ofExcept_bind, hh, ofExcept_bind, hn]
  simp only [ofExcept_bind, htimes, bind_assoc]
  simp only [advanceOn, substep_eq, bind_assoc]

/-- A frame of positive length that succeeds has found how long its sub-steps are. -/
theorem exists_divide_of_advance (hdt : ¬ dt ≤ 0.0)
    (hsteps : w.graph.config.stepping.stepsFor dt = .ok (.number steps))
    (hok : (advance dt w).outcome = .ok ()) : ∃ h, divide dt steps.val = .ok h := by
  unfold advance at hok
  rw [if_neg hdt, read_bind, hsteps] at hok
  obtain ⟨_, e, hok, -⟩ := exists_of_bind_ok hok
  cases e
  obtain ⟨h, hh, -⟩ := exists_of_bind_ok hok
  exact ⟨h, hh⟩

theorem advanceTo_ok_of_advance (hdt : ¬ dt ≤ 0.0)
    (hsteps : w.graph.config.stepping.stepsFor dt = .ok (.number steps))
    (hn : steps.times = .ok n) (hok : (advance dt w).outcome = .ok ()) (hj : j < n) :
    (advanceTo dt j w).outcome = .ok () := by
  obtain ⟨h, hh⟩ := exists_divide_of_advance hdt hsteps hok
  rw [advance_eq hdt hsteps hn hh hj] at hok
  obtain ⟨_, hfirst, -⟩ := exists_of_bind_ok hok
  exact hfirst

/-! ### Strains at these moments -/

/-- All listed springs of `w` have looked at their ends, which leaves `t`. -/
structure Looked (f : Spring K → Point K → Point K → Except (Failure K) (Spring K))
    (w t : Scene K) : Prop where
  idle : Idle w t
  spring : ∀ r ∈ w.graph.listed, ∃ p, t.ends (t.spring r) = .ok p ∧
    f (w.spring r) p.1 p.2 = .ok (t.spring r)

theorem Looks.looked {x : Ref → Act K (Scene K) Unit}
    {f : Spring K → Point K → Point K → Except (Failure K) (Spring K)} (hx : Looks x f)
    (hw : w.Sound) :
    (Act.forEach x w.graph.listed).wp (fun o t => o = .ok () → Looked f w t) w := by
  refine (hx.each hw).mono fun o t => ?_
  rintro ⟨ht, heach⟩ ho
  refine ⟨ht, fun r hr => ?_⟩
  obtain ⟨p, hp, e⟩ := heach ho r hr
  exact ⟨p, (ht.ends r).trans hp, e⟩

theorem relax_looked (hw : w.Sound) (cap : Option K) :
    (relax cap).wp (fun o t => o = .ok () → Looked (relaxing cap) w t) w := by
  unfold relax
  rw [wp_bind, wp_read]
  exact (looks_relaxed cap).looked hw

theorem strain_looked (hw : w.Sound) (h : K) (cap : Option K) :
    (strain h cap).wp (fun o t => o = .ok () → Looked (straining h cap) w t) w := by
  unfold strain
  rw [wp_bind, wp_read]
  exact (looks_strained h cap).looked hw

theorem coast_spec (w : Scene K) (c : Stepping K) (h : K) :
    (coast c h).wp (fun _ t => Strained w t ∧ ∀ r, t.spring r = w.spring r) w := by
  unfold coast
  simp only [wp_bind, wp_read, next_ok, wp_ite, wp_ofExcept]
  split
  · exact ⟨.refl w, fun _ => rfl⟩
  · cases asNumber c.friction with
    | error e => exact ⟨.refl w, fun _ => rfl⟩
    | ok friction => exact ⟨move_strained w friction h, fun _ => rfl⟩

theorem advanceTo_strained (w : Scene K) (dt : K) (j : Nat) :
    (advanceTo dt j).wp (fun _ t => Strained w t) w := by
  unfold advanceTo
  rw [wp_bind, wp_read, next_ok]
  refine wp_bind_check rfl (.refl w) fun h => ?_
  refine wp_bind_keep (relax_strained w _) fun _ t ht => ?_
  refine wp_bind_keep ((times_strained t _ h j).mono fun _ _ => ht.trans) fun _ u hu => ?_
  exact (strain_strained u h _).mono fun _ _ => hu.trans

/-- What begins by looking up the length of the sub-steps has found it where it succeeds. -/
theorem exists_lengthFor {f : Scene K → K → Act K (Scene K) Unit}
    (hok : ((do
      let u ← read
      let h ← ofExcept (u.graph.config.stepping.lengthFor dt)
      f u h : Act K (Scene K) Unit) w).outcome = .ok ()) :
    ∃ h, w.graph.config.stepping.lengthFor dt = .ok h := by
  rw [read_bind] at hok
  obtain ⟨h, hh, -⟩ := exists_of_bind_ok hok
  exact ⟨h, hh⟩

theorem exists_lengthFor_of_advanceTo (hok : (advanceTo dt j w).outcome = .ok ()) :
    ∃ h, w.graph.config.stepping.lengthFor dt = .ok h :=
  exists_lengthFor hok

theorem advanceTo_zero_spec (hw : w.Sound) (hok : (advanceTo dt 0 w).outcome = .ok ())
    (hh : w.graph.config.stepping.lengthFor dt = .ok h) :
    ∃ v, Looked (relaxing w.graph.config.stepping.lengthCap) w v ∧
      Looked (straining h w.graph.config.stepping.lengthCap) v (advanceTo dt 0 w).state := by
  have hv : Strained w (relax w.graph.config.stepping.lengthCap w).state := relax_strained w _
  rw [advanceTo_eq hh] at hok ⊢
  obtain ⟨_, hrelax, hok, e⟩ := exists_of_bind_ok hok
  rw [e]
  exact ⟨_, relax_looked hw _ hrelax, strain_looked (hw.alike hv.alike) h _ hok⟩

theorem advanceTo_succ_spec (hw : w.Sound) (hok : (advanceTo dt (j + 1) w).outcome = .ok ())
    (hh : w.graph.config.stepping.lengthFor dt = .ok h) :
    (advanceTo dt j w).outcome = .ok () ∧ ∃ u, Strained w u ∧
      (∀ r, u.spring r = (advanceTo dt j w).state.spring r) ∧
      Looked (straining h w.graph.config.stepping.lengthCap) u
        (advanceTo dt (j + 1) w).state := by
  have ht : Strained w (advanceTo dt j w).state := advanceTo_strained w dt j
  rw [advanceTo_succ hh] at hok ⊢
  obtain ⟨_, hfirst, hok, e⟩ := exists_of_bind_ok hok
  obtain ⟨_, -, hok, e'⟩ := exists_of_bind_ok hok
  obtain ⟨hu, hspring⟩ := coast_spec (advanceTo dt j w).state w.graph.config.stepping h
  rw [e, e']
  exact ⟨hfirst, _, ht.trans hu, hspring,
    strain_looked (hw.alike (ht.trans hu).alike) h _ hok⟩

theorem advanceTo_motion (hw : w.Sound) (dt : K) (j : Nat) :
    (advanceTo dt j).wp (fun o t =>
      o.map (fun _ => t.motion) = w.motion.advanceTo w.graph.config.stepping dt j) w := by
  unfold advanceTo Motion.advanceTo
  simp only [wp_bind, wp_read, next_ok, wp_ofExcept]
  cases w.graph.config.stepping.lengthFor dt with
  | error e => exact rfl
  | ok h =>
    simp only [next_ok, wp_bind]
    refine ((relax_motion hw _).and (relax_strained w _)).mono fun o t => ?_
    rintro ⟨hm, ht⟩
    have hlook : o.map (fun _ => t.motion) =
        w.motion.look (relaxing w.graph.config.stepping.lengthCap) := hm
    simp only [Except.bind]
    rw [← hlook]
    cases o with
    | error e => exact rfl
    | ok _ =>
      have hts : t.Sound := hw.alike ht.alike
      rw [next_ok, wp_bind]
      refine ((times_motion hts _ h j).and (times_strained t _ h j)).mono fun o u => ?_
      rintro ⟨hm', hu⟩
      simp only [Except.map]
      rw [← hm']
      cases o with
      | error e => exact rfl
      | ok _ => exact strain_motion (hts.alike hu.alike) h _

/-- What the springs look like at any of these moments, they look like from having looked last. -/
theorem advanceTo_looked (hw : w.Sound) (hok : (advanceTo dt j w).outcome = .ok ())
    (hh : w.graph.config.stepping.lengthFor dt = .ok h) :
    ∃ u, Strained w u ∧ Looked (straining h w.graph.config.stepping.lengthCap) u
      (advanceTo dt j w).state := by
  cases j with
  | zero =>
    obtain ⟨v, hv, hl⟩ := advanceTo_zero_spec hw hok hh
    exact ⟨v, hv.idle.strained, hl⟩
  | succ j =>
    obtain ⟨-, u, hu, -, hl⟩ := advanceTo_succ_spec hw hok hh
    exact ⟨u, hu, hl⟩

/-! ### After whole sub-steps -/

/-- A frame up to the end of its first `j` sub-steps. -/
def advanceBy (dt : K) (j : Nat) : Act K (Scene K) Unit := do
  let c := (← read).graph.config.stepping
  let h ← ofExcept (c.lengthFor dt)
  relax c.lengthCap
  times j (substep c h)

theorem advanceBy_eq (hh : w.graph.config.stepping.lengthFor dt = .ok h) (j : Nat) :
    advanceBy dt j w = (do
      relax w.graph.config.stepping.lengthCap
      times j (substep w.graph.config.stepping h) : Act K (Scene K) Unit) w := by
  unfold advanceBy
  rw [read_bind, hh, ofExcept_bind]

theorem advanceTo_eq_advanceBy (hh : w.graph.config.stepping.lengthFor dt = .ok h) (j : Nat) :
    advanceTo dt j w = (do
      advanceBy dt j
      strain h w.graph.config.stepping.lengthCap : Act K (Scene K) Unit) w := by
  rw [advanceTo_eq hh, bind_congr_left (advanceBy_eq hh j), bind_assoc]

theorem advanceBy_succ (hh : w.graph.config.stepping.lengthFor dt = .ok h) (j : Nat) :
    advanceBy dt (j + 1) w = (do
      advanceTo dt j
      coast w.graph.config.stepping h : Act K (Scene K) Unit) w := by
  rw [advanceBy_eq hh, bind_congr_left (advanceTo_eq hh j)]
  simp only [times_add _ j 1, times_one, substep_eq, bind_assoc]

theorem exists_lengthFor_of_advanceBy (hok : (advanceBy dt j w).outcome = .ok ()) :
    ∃ h, w.graph.config.stepping.lengthFor dt = .ok h :=
  exists_lengthFor hok

theorem advanceBy_strained (w : Scene K) (dt : K) (j : Nat) :
    (advanceBy dt j).wp (fun _ t => Strained w t) w := by
  unfold advanceBy
  rw [wp_bind, wp_read, next_ok]
  refine wp_bind_check rfl (.refl w) fun h => ?_
  refine wp_bind_keep (relax_strained w _) fun _ t ht => ?_
  exact (times_strained t _ h j).mono fun _ _ => ht.trans

/-- No node moves before the first sub-step. -/
theorem advanceBy_zero_graph (w : Scene K) (dt : K) :
    (advanceBy dt 0 w).state.graph = w.graph := by
  have hstays : (advanceBy dt 0).wp (fun _ t => Idle w t) w := by
    unfold advanceBy
    rw [wp_bind, wp_read, next_ok]
    refine wp_bind_check rfl (.refl w) fun h => ?_
    exact wp_bind_keep (relax_idle w _) fun _ _ ht => ht
  exact Idle.graph hstays

/-- All springs look between one sub-step and the move of the next. -/
theorem advanceTo_spec (hok : (advanceTo dt j w).outcome = .ok ()) :
    (advanceBy dt j w).outcome = .ok () ∧
      (advanceTo dt j w).state.graph = (advanceBy dt j w).state.graph := by
  obtain ⟨h, hh⟩ := exists_lengthFor_of_advanceTo hok
  rw [advanceTo_eq_advanceBy hh] at hok ⊢
  obtain ⟨_, hfirst, -, e⟩ := exists_of_bind_ok hok
  rw [e]
  exact ⟨hfirst, Idle.graph (strain_idle _ h _)⟩

/-- The nodes move from where they were when the springs looked. -/
theorem advanceBy_succ_spec {friction : K} (hok : (advanceBy dt (j + 1) w).outcome = .ok ())
    (hh : w.graph.config.stepping.lengthFor dt = .ok h)
    (hf : w.graph.config.stepping.friction = some friction) :
    (advanceTo dt j w).outcome = .ok () ∧
      (advanceBy dt (j + 1) w).state = (advanceTo dt j w).state.move friction h := by
  rw [advanceBy_succ hh] at hok ⊢
  obtain ⟨_, hfirst, -, e⟩ := exists_of_bind_ok hok
  refine ⟨hfirst, e.trans ?_⟩
  let t := (advanceTo dt j w).state
  show ((if t.graph.nodes.isEmpty then pure () else do
    let friction ← ofExcept (asNumber w.graph.config.stepping.friction)
    change (·.move friction h) : Act K (Scene K) Unit) t).state = t.move friction h
  split
  · next hempty =>
    have hnodes : t.graph.nodes = [] := List.isEmpty_iff.1 hempty
    show t = { t with graph := { t.graph with nodes := t.graph.nodes.map _ } }
    rw [hnodes, List.map_nil, ← hnodes]
  · rw [hf]
    rfl

/-- Where there are nodes, a sub-step that succeeds has found the friction. -/
theorem exists_friction (hok : (advanceBy dt (j + 1) w).outcome = .ok ())
    (hne : w.graph.nodes ≠ []) : ∃ friction, w.graph.config.stepping.friction = some friction := by
  obtain ⟨h, hh⟩ := exists_lengthFor_of_advanceBy hok
  let t := (advanceTo dt j w).state
  have hempty : t.graph.nodes.isEmpty = false := by
    have hids : t.graph.nodes.map Node.id = w.graph.nodes.map Node.id :=
      (advanceTo_strained w dt j).alike.ids
    rw [List.isEmpty_eq_false_iff]
    intro hnil
    rw [hnil, List.map_nil] at hids
    exact hne (List.map_eq_nil_iff.1 hids.symm)
  rw [advanceBy_succ hh] at hok
  obtain ⟨_, -, hok, -⟩ := exists_of_bind_ok hok
  have hcoast : ((if t.graph.nodes.isEmpty then pure () else do
    let friction ← ofExcept (asNumber w.graph.config.stepping.friction)
    change (·.move friction h) : Act K (Scene K) Unit) t).outcome = .ok () := hok
  rw [hempty, if_neg Bool.false_ne_true] at hcoast
  obtain ⟨friction, hfriction, -⟩ := exists_of_bind_ok hcoast
  exact ⟨friction, asNumber_eq_ok_iff.1 hfriction⟩

/-- The end of a frame: only the sweep is left when all sub-steps are over. -/
theorem advance_eq_advanceBy (hdt : ¬ dt ≤ 0.0)
    (hsteps : w.graph.config.stepping.stepsFor dt = .ok (.number steps))
    (hn : steps.times = .ok n) (hh : divide dt steps.val = .ok h) :
    advance dt w = (do
      advanceBy dt n
      sweep
      let w ← read
      report (.frame dt steps w.graph.nodes.length w.graph.listed.length) :
        Act K (Scene K) Unit) w := by
  have hlength : w.graph.config.stepping.lengthFor dt = .ok h :=
    (Stepping.lengthFor_eq hsteps).trans hh
  rw [bind_congr_left (advanceBy_eq hlength n), advance, if_neg hdt, read_bind, hsteps]
  show (ofExcept (.ok steps) >>= _) w = _
  rw [ofExcept_bind, hh, ofExcept_bind, hn]
  simp only [ofExcept_bind, bind_assoc]

/-- A frame that succeeds gets through all its sub-steps and ends where the last of them does. -/
theorem advanceBy_of_advance (hw : w.Sound) (hdt : ¬ dt ≤ 0.0)
    (hsteps : w.graph.config.stepping.stepsFor dt = .ok (.number steps))
    (hn : steps.times = .ok n) (hok : (advance dt w).outcome = .ok ()) :
    (∀ j ≤ n, (advanceBy dt j w).outcome = .ok ()) ∧
      Struck (advanceBy dt n w).state (advance dt w).state := by
  obtain ⟨h, hh⟩ := exists_divide_of_advance hdt hsteps hok
  have hpasses : ∀ j < n, (advanceBy dt j w).outcome = .ok () := fun j hj =>
    (advanceTo_spec (advanceTo_ok_of_advance hdt hsteps hn hok hj)).1
  have hu : Strained w (advanceBy dt n w).state := advanceBy_strained w dt n
  rw [advance_eq_advanceBy hdt hsteps hn hh] at hok ⊢
  obtain ⟨_, hlast, hok, e⟩ := exists_of_bind_ok hok
  obtain ⟨_, -, -, e'⟩ := exists_of_bind_ok hok
  constructor
  · intro j hj
    rcases Nat.lt_or_eq_of_le hj with hlt | rfl
    · exact hpasses j hlt
    · exact hlast
  · rw [e, e']
    exact (sweep_spec (hw.alike hu.alike)).2.2.1

end Scene

end Linkage
