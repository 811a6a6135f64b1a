import Linkage.Proofs.Scene.Run
import Mathlib.Data.Sym.Sym2

/-!
# Drawn lines are a set of pairs

A drawn connection is read as the unordered pair of its ends. `lineEdits` notes which lines a run
draws, rubs out and clears away with a node. Carried out on a set of pairs, these edits give what
the graph has drawn in the end; carried out on a list, they give how it lists them (`lines_after`).

`connect_spec` says what a call gives that draws a line.
-/

namespace Linkage

/-! ### Pairs -/

/-- A line as it was asked for. -/
structure Line where
  start : Key
  stop : Key

def Line.pair (p : Line) : Sym2 Key := s(p.start, p.stop)

namespace Connection

variable {c d : Connection} {k l : Key}

def line (c : Connection) : Line := ⟨some c.a, some c.b⟩

def pair (c : Connection) : Sym2 Key := c.line.pair

theorem joins_iff : c.joins k l ↔ c.pair = s(k, l) := by
  simp [joins, pair, line, Line.pair]

theorem contains_iff : c.contains k ↔ k ∈ c.pair := by
  simp only [contains, Bool.or_eq_true, beq_iff_eq, pair, line, Line.pair, Sym2.mem_iff,
    eq_comm (a := k)]

theorem sameLine_iff : c.sameLine d ↔ c.pair = d.pair := joins_iff

/-- The ends in ascending order stand for the pair. -/
theorem ends_eq_iff : c.ends = d.ends ↔ c.pair = d.pair := by
  have key : ∀ a b a' b' : Int, (min a b = min a' b' ∧ max a b = max a' b') ↔
      (a = a' ∧ b = b' ∨ a = b' ∧ b = a') := by omega
  rw [← sameLine_iff]
  simpa [ends, sameLine, joins] using key c.a c.b d.a d.b

theorem hash_eq (h : c.pair = d.pair) : hash c = hash d := by
  show hash c.ends = hash d.ends
  rw [ends_eq_iff.2 h]

end Connection

/-! ### Edits -/

inductive LineEdit where
  | draw (k l : Key)
  | rub (k l : Key)
  /-- All lines at a node go. -/
  | clear (k : Key)

namespace LineEdit

def onPairs (ps : Finset (Sym2 Key)) : LineEdit → Finset (Sym2 Key)
  | draw k l => insert s(k, l) ps
  | rub k l => ps.erase s(k, l)
  | clear k => ps.filter (k ∉ ·)

/-- A line that is there already keeps its place and its direction. -/
def onLines (ls : List Line) : LineEdit → List Line
  | draw k l => if s(k, l) ∈ ls.map Line.pair then ls else ls ++ [⟨k, l⟩]
  | rub k l => ls.filter (·.pair ≠ s(k, l))
  | clear k => ls.filter (k ∉ ·.pair)

theorem pairs_onLines (e : LineEdit) (ls : List Line) :
    ((e.onLines ls).map Line.pair).toFinset = e.onPairs (ls.map Line.pair).toFinset := by
  cases e with
  | draw k l =>
    rw [onLines, onPairs]
    split
    · next h => rw [Finset.insert_eq_of_mem (List.mem_toFinset.2 h)]
    · ext p
      simp [Line.pair, eq_comm]
  | rub k l =>
    ext p
    simp only [onLines, onPairs, List.mem_toFinset, List.mem_map, List.mem_filter, Finset.mem_erase]
    grind
  | clear k =>
    ext p
    simp only [onLines, onPairs, List.mem_toFinset, List.mem_map, List.mem_filter,
      Finset.mem_filter]
    grind

theorem nodup_onLines (e : LineEdit) {ls : List Line} (h : (ls.map Line.pair).Nodup) :
    ((e.onLines ls).map Line.pair).Nodup := by
  cases e with
  | draw k l =>
    rw [onLines]
    split
    · exact h
    · next hnew =>
      rw [List.map_append]
      refine List.nodup_append.2 ⟨h, List.nodup_singleton _, fun p hp q hq e => hnew ?_⟩
      rw [e, List.mem_singleton.1 hq] at hp
      exact hp
  | rub k l => exact h.sublist (List.filter_sublist.map _)
  | clear k => exact h.sublist (List.filter_sublist.map _)

end LineEdit

namespace Scene

open Act

variable {K : Type} [Scalar K] {w t : Scene K} {k l : Key}

/-- The drawn connections, each in the direction in which it was drawn. -/
def lines (w : Scene K) : List Line := w.graph.connections.map Connection.line

def pairs (w : Scene K) : List (Sym2 Key) := w.graph.connections.map Connection.pair

omit [Scalar K] in
theorem map_pair_lines (w : Scene K) : w.lines.map Line.pair = w.pairs := List.map_map

/-- What an operation does to the lines. Only a call that succeeds draws one. -/
def Op.lineEdit (w : Scene K) : Op K → Option LineEdit
  | .connect k l =>
    match (Scene.connect k l w).outcome with
    | .ok _ => some (.draw k l)
    | .error _ => none
  | .disconnect k l => some (.rub k l)
  | .deleteNode k => some (.clear k)
  | _ => none

def lineEdits : List (Op K) → Scene K → List LineEdit
  | [], _ => []
  | o :: ops, w => (o.lineEdit w).toList ++ lineEdits ops (o.step w)

/-! ### What a single operation does -/

omit [Scalar K] in
/-- A line between two nodes: the one that is listed for the pair, or a new one at the end. -/
theorem connect_spec (w : Scene K) (k l : Key) :
    (connect k l).wp
      (fun o t => match o with
        | .error _ => ¬ (k ≠ l ∧ w.isNode k ∧ w.isNode l) ∧ t = w
        | .ok c => (k ≠ l ∧ w.isNode k ∧ w.isNode l) ∧ c.pair = s(k, l) ∧
            ((c ∈ w.graph.connections ∧ t = w) ∨
              (c.line = ⟨k, l⟩ ∧ s(k, l) ∉ w.pairs ∧ t = w.insertConnection c))) w := by
  unfold connect
  simp only [wp_ite, wp_bind, wp_fail, next_error, wp_needNode]
  split
  · next hkl => exact ⟨fun h => h.1 hkl, trivial⟩
  · next hkl =>
    cases ha : w.node? k with
    | none => exact ⟨fun h => by simp [isNode, ha] at h, trivial⟩
    | some a =>
      simp only [next_ok, wp_bind, wp_needNode]
      cases hb : w.node? l with
      | none => exact ⟨fun h => by simp [isNode, hb] at h, rfl⟩
      | some b =>
        obtain ⟨-, rfl⟩ := of_node?_eq_some ha
        obtain ⟨-, rfl⟩ := of_node?_eq_some hb
        have hnodes := And.intro hkl (And.intro (isNode_of_node? ha) (isNode_of_node? hb))
        have hne : a.id ≠ b.id := fun e => hkl (congrArg some e)
        simp only [next_ok, wp_bind, wp_ofExcept, Connection.between_of_ne hne, wp_read]
        split
        · next c hc =>
          have hsame := List.find?_some hc
          exact ⟨hnodes, Connection.sameLine_iff.1 hsame, .inl ⟨List.mem_of_find?_eq_some hc, rfl⟩⟩
        · next hnone =>
          refine ⟨hnodes, rfl, .inr ⟨rfl, fun hmem => ?_, rfl⟩⟩
          obtain ⟨c, hc, hp⟩ := List.mem_map.1 hmem
          exact List.find?_eq_none.1 hnone c hc (Connection.sameLine_iff.2 hp)

omit [Scalar K] in
theorem lines_of_connect {c : Connection} (hc : c.pair = s(k, l))
    (h : (c ∈ w.graph.connections ∧ t = w) ∨
      (c.line = ⟨k, l⟩ ∧ s(k, l) ∉ w.pairs ∧ t = w.insertConnection c)) :
    t.lines = (LineEdit.draw k l).onLines w.lines := by
  rw [LineEdit.onLines, map_pair_lines]
  obtain ⟨hmem, rfl⟩ | ⟨hline, hnew, rfl⟩ := h
  · exact (if_pos (List.mem_map.2 ⟨c, hmem, hc⟩)).symm
  · rw [if_neg hnew, ← hline]
    exact List.map_append

omit [Scalar K] in
theorem lines_eraseConnection :
    (w.eraseConnection k l).lines = (LineEdit.rub k l).onLines w.lines := by
  simp only [lines, eraseConnection, LineEdit.onLines, List.filter_map]
  refine congrArg _ (List.filter_congr fun c _ => ?_)
  rw [Bool.eq_iff_iff, Bool.not_eq_true', ← Bool.not_eq_true, Function.comp_apply,
    decide_eq_true_eq]
  exact not_congr Connection.joins_iff

omit [Scalar K] in
theorem lines_filter_contains :
    (w.graph.connections.filter fun c => !c.contains k).map Connection.line =
      (LineEdit.clear k).onLines w.lines := by
  simp only [lines, LineEdit.onLines, List.filter_map]
  refine congrArg _ (List.filter_congr fun c _ => ?_)
  rw [Bool.eq_iff_iff, Bool.not_eq_true', ← Bool.not_eq_true, Function.comp_apply,
    decide_eq_true_eq]
  exact not_congr Connection.contains_iff

theorem enterNew_connections (w : Scene K) (c : SpringSpec K) :
    (enterNew c).wp (fun _ t => t.graph.connections = w.graph.connections) w := by
  refine (enterNew_spec w c).mono fun o t ht => ?_
  cases o with
  | error e => exact congrArg (·.graph.connections) (show t = w from ht)
  | ok r =>
    obtain ⟨-, s, -, -, rfl⟩ := ht
    rfl

/-- The lines after an operation are those before it with its edit carried out. -/
theorem Op.lines_step (h : w.Sound) (o : Op K) :
    (o.step w).lines = (o.lineEdit w).toList.foldl LineEdit.onLines w.lines := by
  let Same : Scene K → Prop := fun t => t.graph.connections = w.graph.connections
  have same : ∀ {x : Act K (Scene K) Unit}, x.wp (fun _ t => Same t) w →
      (x w).state.lines = w.lines := fun hx => congrArg (List.map Connection.line) hx
  have enter : ∀ c, c.Supplied w.graph.config → (enterNew c).wp (fun _ t => Same t) w :=
    fun c _ => enterNew_connections w c
  cases o with
  | addNode spot => exact same (wp_discard (addNode_keep (I := Same) rfl (fun _ => rfl) spot))
  | deleteNode k =>
    have hk := (deleteNode_spec h k).2.connections
    exact (congrArg (List.map Connection.line) hk).trans lines_filter_contains
  | putNode k spot => exact same (putNode_keep (I := Same) rfl (fun _ _ => rfl) k spot)
  | connect k l =>
    refine wp_discard (I := fun t => t.lines = _) ?_
    have hspec := connect_spec w k l
    rw [wp] at hspec ⊢
    rw [lineEdit]
    cases ho : (Scene.connect k l w).outcome with
    | error e =>
      rw [ho] at hspec
      rw [hspec.2]
      rfl
    | ok c =>
      rw [ho] at hspec
      exact lines_of_connect hspec.2.1 hspec.2.2
  | disconnect k l => exact lines_eraseConnection
  | makeSpring c => exact same (wp_bind_check (I := Same) rfl rfl fun s => rfl)
  | enterSpring r =>
    refine same ((enterSpring_spec h r).mono fun _ t => ?_)
    rintro (rfl | ⟨-, -, rfl⟩) <;> rfl
  | pin k spot => exact same (wp_discard (pin_keep (I := Same) rfl enter k spot))
  | tie a b lower upper => exact same (wp_discard (tie_keep (I := Same) enter a b lower upper))
  | follow k spot => exact same (wp_discard (follow_keep (I := Same) enter k spot))
  | deleteSpring k =>
    exact same ((deleteSpring_onward h k).mono fun _ _ ht => ht.2.2.connections)
  | movePoint r spot => exact same ((movePoint_alike w r spot).mono fun _ _ ht => ht.connections)
  | boundSpring r lower upper => rfl
  | expire r => rfl
  | advance dt =>
    refine same ((advance_graph h dt).mono fun _ t ht => ?_)
    show t.graph.connections = _
    rw [ht.1]
  | elsewhere r s =>
    refine same ?_
    unfold act
    rw [wp_bind, wp_read, next_ok, wp_ite]
    split <;> exact rfl

/-! ### Runs -/

theorem lines_after (h : w.Sound) (ops : List (Op K)) :
    (after ops w).lines = (lineEdits ops w).foldl LineEdit.onLines w.lines := by
  induction ops generalizing w with
  | nil => rfl
  | cons o ops ih =>
    show (after ops (o.step w)).lines = _
    rw [ih (o.step_onward h).sound, o.lines_step h, lineEdits, List.foldl_append]

end Scene

/-- Edits of a list of lines are edits of the set of their pairs, and no pair is listed twice. -/
theorem LineEdit.refines (es : List LineEdit) (ls : List Line) (h : (ls.map Line.pair).Nodup) :
    ((es.foldl onLines ls).map Line.pair).Nodup ∧
      ((es.foldl onLines ls).map Line.pair).toFinset =
        es.foldl onPairs (ls.map Line.pair).toFinset := by
  induction es generalizing ls with
  | nil => exact ⟨h, rfl⟩
  | cons e es ih =>
    obtain ⟨hnodup, hpairs⟩ := ih _ (e.nodup_onLines h)
    refine ⟨hnodup, hpairs.trans ?_⟩
    rw [e.pairs_onLines, List.foldl_cons]

namespace Scene

open Act

variable {K : Type} [Scalar K]

/-- Whatever a run draws, rubs out and removes, from an empty graph on: connections are a set of
pairs. They are listed without duplicates in the order in which they were drawn, each in the
direction of the call that drew it. A call that draws a line succeeds where it joins two different
nodes, and gives the one connection of that pair. Connections are equal when they are the same pair,
and have one hash then. -/
theorem lines_after_run (c : Config K) (springs : Arena (Spring K)) (ops : List (Op K)) :
    let w : Scene K := { springs := springs, graph := { config := c } }
    let t := after ops w
    let edits := lineEdits ops w
    t.lines = edits.foldl LineEdit.onLines [] ∧
      t.pairs.Nodup ∧ t.pairs.toFinset = edits.foldl LineEdit.onPairs ∅ ∧
      (∀ k l, (connect k l).wp
        (fun o u => ((∃ d, o = .ok d) ↔ k ≠ l ∧ t.isNode k ∧ t.isNode l) ∧
          ∀ d, o = .ok d → d.pair = s(k, l) ∧ d ∈ u.graph.connections ∧
            (∀ e ∈ u.graph.connections, e.pair = s(k, l) → e = d) ∧
            u.lines = (LineEdit.draw k l).onLines t.lines) t) ∧
      (∀ d e : Connection, d.sameLine e ↔ d.pair = e.pair) ∧
      ∀ d e : Connection, d.sameLine e → hash d = hash e := by
  intro w t edits
  have hlines : t.lines = edits.foldl LineEdit.onLines [] := lines_after (sound_empty c springs) ops
  obtain ⟨hnodup, hpairs⟩ := LineEdit.refines edits [] List.nodup_nil
  rw [← hlines, map_pair_lines] at hnodup hpairs
  refine ⟨hlines, hnodup, hpairs, fun k l => ?_, fun _ _ => Connection.sameLine_iff,
    fun _ _ h => Connection.hash_eq (Connection.sameLine_iff.1 h)⟩
  refine (connect_spec t k l).mono fun o u ho => ?_
  cases o with
  | error e => exact ⟨iff_of_false (fun ⟨d, hd⟩ => nomatch hd) ho.1, fun d hd => nomatch hd⟩
  | ok d =>
    obtain ⟨hnodes, hd, hu⟩ := ho
    have hlines' := lines_of_connect hd hu
    have hmem : d ∈ u.graph.connections := by
      obtain ⟨hmem, rfl⟩ | ⟨-, -, rfl⟩ := hu
      · exact hmem
      · exact List.mem_append_right _ (List.mem_singleton_self d)
    have hnodup' : u.pairs.Nodup := by
      rw [← map_pair_lines, hlines']
      exact LineEdit.nodup_onLines _ (map_pair_lines t ▸ hnodup)
    refine ⟨⟨fun _ => hnodes, fun _ => ⟨d, rfl⟩⟩, ?_⟩
    rintro _ ⟨⟩
    exact ⟨hd, hmem, fun e he hp => List.inj_on_of_nodup_map hnodup' he hmem (hp.trans hd.symm),
      hlines'⟩

end Scene

end Linkage
