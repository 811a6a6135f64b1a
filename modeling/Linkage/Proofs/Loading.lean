import Linkage.Proofs.Comparison
import Linkage.Proofs.Settings
import Mathlib.Data.List.Forall2

/-!
# Loading settings

A settings document is laid over the standard settings: `Settings.overlay` reads every setting off
the document by the path of keys under which it stands. Settings are loaded exactly if all of
`Settings.rules` hold, and otherwise the first rule that is broken is complained of (`load_eq`).

This is shown for binary64 numbers, of which one is on the right side of a bound exactly if it is
not on the wrong one.
-/

namespace Linkage

variable {K : Type}

/-- The value at the end of a path of keys, where mappings lead that far. -/
def Value.at? : Value K → List String → Option (Value K)
  | v, [] => some v
  | .mapping es, key :: path => (lookup key es).bind (·.at? path)
  | _, _ :: _ => none

def Value.isMapping : Value K → Bool
  | .mapping _ => true
  | _ => false

def Number.isNaN : Number Float → Bool
  | .real x => x.isNaN
  | _ => false

theorem Number.isNaN_val {n : Number Float} (h : n.isNaN = false) : n.val.isNaN = false := by
  cases n with
  | real x => exact h
  | whole n => exact Binary64.isNaN_ofInt n
  | flag b => exact Binary64.isNaN_ofInt _

namespace Settings

/-! ### Laying over -/

section

variable {d : Value K} {es : List (Value K × Value K)} {name : String}

theorem at?_singleton (es : List (Value K × Value K)) (key : String) :
    (Value.mapping es).at? [key] = Value.lookup key es :=
  Option.bind_fun_some _

/-- Mappings stand where sections and kinds of springs are looked for. -/
structure Sectioned (d : Value K) : Prop where
  top : d.isMapping
  parts : ∀ name ∈ ["springs", "integration", "rail"], ∀ v, d.at? [name] = some v → v.isMapping
  kinds : ∀ (kind : SpringKind) v, d.at? ["springs", kind.name] = some v → v.isMapping

theorem exists_mapping {v : Value K} (h : v.isMapping) : ∃ es, v = .mapping es := by
  cases v with
  | mapping es => exact ⟨es, rfl⟩
  | _ => cases h

/-- What stands in a section is found by the path through it; one that is left out is empty. -/
theorem exists_part (h : ∀ v, (Value.mapping es).at? [name] = some v → v.isMapping) :
    ∃ inner, part name es = .ok inner ∧ ∀ key path,
      (Value.mapping es).at? (name :: key :: path) = (Value.mapping inner).at? (key :: path) := by
  rw [at?_singleton] at h
  unfold part
  cases hv : Value.lookup name es with
  | none => exact ⟨[], rfl, fun key path => by rw [Value.at?, hv]; rfl⟩
  | some v =>
    obtain ⟨inner, rfl⟩ := exists_mapping (h v hv)
    exact ⟨inner, rfl, fun key path => by rw [Value.at?, hv]; rfl⟩

variable [Scalar K]

/-- Every setting as the document has it, or else as it is standard. -/
def overlay (d : Value K) : Settings K where
  stiffness kind := (d.at? ["springs", kind.name, "stiffness"]).getD (standard.stiffness kind)
  damping kind := (d.at? ["springs", kind.name, "damping"]).getD (standard.damping kind)
  policy := (d.at? ["integration", "substep_policy"]).getD standard.policy
  substeps := (d.at? ["integration", "substeps"]).getD standard.substeps
  maxSubstep := (d.at? ["integration", "max_substep_s"]).getD standard.maxSubstep
  friction := (d.at? ["integration", "friction"]).getD standard.friction
  lengthCap := (d.at? ["integration", "length_cap"]).getD standard.lengthCap
  railsEnd :=
    ((d.at? ["rail", "clamp_to_segment"]).map Value.isTrue).getD (standard : Settings K).railsEnd

theorem ofDocument_eq (h : Sectioned d) : ofDocument d = .ok (overlay d) := by
  obtain ⟨es, rfl⟩ := exists_mapping h.top
  obtain ⟨springs, hsprings, atSprings⟩ := exists_part (h.parts "springs" (by simp))
  obtain ⟨stepping, hstepping, atStepping⟩ := exists_part (h.parts "integration" (by simp))
  obtain ⟨ends, hends, atEnds⟩ := exists_part (h.parts "rail" (by simp))
  have hkind : ∀ kind : SpringKind, ∃ inner, part kind.name springs = .ok inner ∧ ∀ key path,
      (Value.mapping es).at? ("springs" :: kind.name :: key :: path) =
        (Value.mapping inner).at? (key :: path) := fun kind => by
    obtain ⟨inner, hinner, atInner⟩ :=
      exists_part fun v hv => h.kinds kind v ((atSprings kind.name []).trans hv)
    exact ⟨inner, hinner, fun key path => (atSprings _ _).trans (atInner key path)⟩
  choose inner hinner atInner using hkind
  have hwritten : ∀ kind key v,
      ((Value.mapping es).at? ["springs", kind.name, key]).getD v = written (inner kind) key v := by
    intro kind key v
    rw [atInner, at?_singleton, written]
  have hlaid : (overlay (.mapping es) : Settings K) =
      { stiffness := fun kind => written (inner kind) "stiffness" (standard.stiffness kind)
        damping := fun kind => written (inner kind) "damping" (standard.damping kind)
        policy := written stepping "substep_policy" standard.policy
        substeps := written stepping "substeps" standard.substeps
        maxSubstep := written stepping "max_substep_s" standard.maxSubstep
        friction := written stepping "friction" standard.friction
        lengthCap := written stepping "length_cap" standard.lengthCap
        railsEnd := (written ends "clamp_to_segment" (.number (.flag false))).isTrue } := by
    simp only [overlay, hwritten, atStepping, atEnds, at?_singleton, written]
    cases Value.lookup "clamp_to_segment" ends <;> rfl
  rw [hlaid]
  unfold ofDocument
  -- an empty mapping is not looked into
  cases es with
  | nil =>
    simp only [Value.isTrue, List.isEmpty_nil, Bool.not_true, Bool.false_eq_true, if_false, bind,
      Except.bind, pure, Except.pure, hsprings, hstepping, hends, hinner]
    congr 2 <;> exact funext fun kind => by cases kind <;> rfl
  | cons e es =>
    simp only [Value.isTrue, List.isEmpty_cons, Bool.not_false, if_true, entries, bind,
      Except.bind, pure, Except.pure, hsprings, hstepping, hends, hinner]
    congr 2 <;> exact funext fun kind => by cases kind <;> rfl

end

/-! ### The first complaint -/

/-- What has to hold of a setting, and what is complained of where it does not. -/
structure Rule (K : Type) where
  holds : Prop
  misfit : Misfit K

/-- Looks for one misfit; looking may fail. -/
abbrev Complaint (K : Type) := Unit → Except (Failure K) (Option (Misfit K))

/-- The complaint is made exactly if the rule is broken. -/
def Rule.Kept (r : Rule K) (c : Complaint K) : Prop :=
  (r.holds → c () = .ok none) ∧ (¬ r.holds → c () = .ok (some r.misfit))

/-- Lists of complaints are gone through one after the other. -/
theorem firstOf_flatten (l : List (List (Complaint K))) :
    firstOf (l.map fun cs _ => firstOf cs) = firstOf l.flatten := by
  induction l with
  | nil => rfl
  | cons cs l ih =>
    rw [List.map_cons, firstOf, ih, List.flatten_cons]
    induction cs with
    | nil => rfl
    | cons c cs ih =>
      rw [List.cons_append, firstOf, firstOf]
      cases c () with
      | error e => rfl
      | ok m =>
        cases m with
        | none => exact ih
        | some m => rfl

theorem firstOf_eq_none {rs : List (Rule K)} {cs : List (Complaint K)}
    (h : List.Forall₂ Rule.Kept rs cs) :
    firstOf cs = .ok none ↔ ∀ r ∈ rs, r.holds := by
  induction h with
  | nil => simp [firstOf]
  | @cons r c rs cs hr _ ih =>
    rw [firstOf, List.forall_mem_cons]
    by_cases hold : r.holds
    · rw [hr.1 hold, and_iff_right hold, ← ih]
    · simp [hr.2 hold, hold]

/-- The rules before the broken one hold, so it is the first that is complained of. -/
theorem firstOf_eq_some {before after : List (Rule K)} {r : Rule K} {cs : List (Complaint K)}
    (h : List.Forall₂ Rule.Kept (before ++ r :: after) cs) (hold : ∀ s ∈ before, s.holds)
    (hr : ¬ r.holds) : firstOf cs = .ok (some r.misfit) := by
  induction before generalizing cs with
  | nil =>
    obtain - | ⟨hc, -⟩ := h
    rw [firstOf, hc.2 hr]
  | cons s before ih =>
    obtain - | ⟨hc, h⟩ := h
    rw [List.forall_mem_cons] at hold
    rw [firstOf, hc.1 hold.1]
    exact ih h hold.2

/-! ### The rules -/

/-- A number of which `p` holds. -/
def Meets (v : Value Float) (p : Float → Prop) : Prop := ∃ n, v = .number n ∧ p n.val

/-- What settings have to be like, in the order in which they are looked at. -/
def rules (c : Settings Float) : List (Rule Float) :=
  (SpringKind.all.flatMap fun kind => [
    ⟨Meets (c.stiffness kind) (0.0 < ·), .stiffnessNotPositive kind⟩,
    ⟨Meets (c.damping kind) (0.0 ≤ ·), .dampingNegative kind⟩]) ++ [
  ⟨c.policy = .text "fixed_count" ∨ c.policy = .text "max_duration", .unknownPolicy c.policy⟩,
  ⟨Meets c.substeps (1.0 ≤ ·), .tooFewSubsteps⟩,
  ⟨Meets c.maxSubstep (0.0 < ·), .maxSubstepNotPositive⟩,
  ⟨Meets c.friction (0.0 ≤ ·), .frictionNegative⟩,
  ⟨Meets c.lengthCap (0.0 < ·), .lengthCapNotPositive⟩]

def IsNumber (v : Value Float) : Prop := ∃ n, v = .number n ∧ n.isNaN = false

/-- Numbers stand where numbers are expected. -/
structure Numeric (c : Settings Float) : Prop where
  stiffness : ∀ kind, IsNumber (c.stiffness kind)
  damping : ∀ kind, IsNumber (c.damping kind)
  substeps : IsNumber c.substeps
  maxSubstep : IsNumber c.maxSubstep
  friction : IsNumber c.friction
  lengthCap : IsNumber c.lengthCap

theorem kept_complain {v : Value Float} {p : Float → Prop} {q : Float → Bool} {m : Misfit Float}
    (h : IsNumber v) (hq : ∀ x : Float, x.isNaN = false → (q x = false ↔ p x)) :
    (Rule.mk (Meets v p) m).Kept fun _ => complain v q m := by
  obtain ⟨n, rfl, hn⟩ := h
  have hmeets : Meets (.number n) p ↔ q n.val = false := by
    rw [hq n.val (Number.isNaN_val hn)]
    exact ⟨fun ⟨m, e, hm⟩ => by cases e; exact hm, fun hp => ⟨n, rfl, hp⟩⟩
  have hcomplain : complain (.number n) q m = .ok (if q n.val then some m else none) := rfl
  unfold Rule.Kept
  simp only [hmeets, hcomplain]
  cases q n.val <;> simp

theorem isPolicy_iff {v : Value Float} :
    isPolicy v ↔ v = .text "fixed_count" ∨ v = .text "max_duration" := by
  cases v with
  | text name =>
    simp only [isPolicy, SubstepPolicy.ofName, Value.text.injEq]
    by_cases h : name = "fixed_count"
    · simp [h]
    · by_cases h' : name = "max_duration" <;> simp [h, h']
  | _ => simp [isPolicy]

theorem kept_policy (v : Value Float) :
    (Rule.mk (v = .text "fixed_count" ∨ v = .text "max_duration") (.unknownPolicy v)).Kept fun _ =>
      .ok (if isPolicy v then none else some (.unknownPolicy v)) := by
  unfold Rule.Kept
  simp only [← isPolicy_iff]
  cases isPolicy v <;> simp

/-- What is complained of where it is below a bound, or at it. -/
def complaints (c : Settings Float) : List (Complaint Float) :=
  (SpringKind.all.flatMap fun kind => [
    fun _ => complain (c.stiffness kind) (fun x => decide (x ≤ 0.0)) (.stiffnessNotPositive kind),
    fun _ => complain (c.damping kind) (fun x => decide (x < 0.0)) (.dampingNegative kind)]) ++ [
  fun _ => .ok (if isPolicy c.policy then none else some (.unknownPolicy c.policy)),
  fun _ => complain c.substeps (fun x => decide (x < 1.0)) .tooFewSubsteps,
  fun _ => complain c.maxSubstep (fun x => decide (x ≤ 0.0)) .maxSubstepNotPositive,
  fun _ => complain c.friction (fun x => decide (x < 0.0)) .frictionNegative,
  fun _ => complain c.lengthCap (fun x => decide (x ≤ 0.0)) .lengthCapNotPositive]

theorem check_eq (c : Settings Float) : c.check = firstOf c.complaints := by
  have hsprings : c.checkSprings = firstOf (SpringKind.all.flatMap fun kind => [
      fun _ => complain (c.stiffness kind) (fun x => decide (x ≤ 0.0)) (.stiffnessNotPositive kind),
      fun _ => complain (c.damping kind) (fun x => decide (x < 0.0)) (.dampingNegative kind)]) := by
    rw [List.flatMap, ← firstOf_flatten, List.map_map]
    rfl
  rw [check, hsprings]
  exact (firstOf_flatten [_, _]).trans (congrArg firstOf (by rw [complaints]; simp))

theorem kept_complaints {c : Settings Float} (h : Numeric c) :
    List.Forall₂ Rule.Kept (rules c) (complaints c) := by
  have hzero : (0.0 : Float).isNaN = false := by decide
  have hone : (1.0 : Float).isNaN = false := by decide
  have above : ∀ {v m}, IsNumber v →
      (Rule.mk (Meets v (0.0 < ·)) m).Kept fun _ => complain v (fun x => decide (x ≤ 0.0)) m :=
    fun hv => kept_complain hv fun x hx => by
      rw [decide_eq_false_iff_not, Binary64.not_le_iff hx hzero]
  have notBelow : ∀ {b : Float} {v m}, b.isNaN = false → IsNumber v →
      (Rule.mk (Meets v (b ≤ ·)) m).Kept fun _ => complain v (fun x => decide (x < b)) m :=
    fun hb hv => kept_complain hv fun x hx => by
      rw [decide_eq_false_iff_not, Binary64.not_lt_iff hx hb]
  have hkinds : List.Forall₂ (· = ·) SpringKind.all SpringKind.all := List.forall₂_refl _
  refine List.rel_append (List.rel_flatMap hkinds ?_)
    (.cons (kept_policy c.policy) <| .cons (notBelow hone h.substeps) <|
      .cons (above h.maxSubstep) <| .cons (notBelow hzero h.friction) <|
      .cons (above h.lengthCap) .nil)
  rintro kind _ rfl
  exact .cons (above (h.stiffness kind)) (.cons (notBelow hzero (h.damping kind)) .nil)

/-! ### Loading -/

/-- Where numbers stand in a document. -/
def numberPaths : List (List String) :=
  (SpringKind.all.flatMap fun kind =>
    [["springs", kind.name, "stiffness"], ["springs", kind.name, "damping"]]) ++
  [["integration", "substeps"], ["integration", "max_substep_s"], ["integration", "friction"],
    ["integration", "length_cap"]]

/-- All that is read of a document. -/
def knownPaths : List (List String) :=
  numberPaths ++ [["integration", "substep_policy"], ["rail", "clamp_to_segment"]]

/-- A mapping of sections, with numbers where numbers are expected. -/
structure Shaped (d : Value Float) : Prop extends Sectioned d where
  numbers : ∀ path ∈ numberPaths, ∀ v, d.at? path = some v → IsNumber v

theorem mem_numberPaths (kind : SpringKind) :
    ["springs", kind.name, "stiffness"] ∈ numberPaths ∧
      ["springs", kind.name, "damping"] ∈ numberPaths := by
  cases kind <;> decide

theorem numeric_overlay {d : Value Float} (h : Shaped d) : Numeric (overlay d) := by
  have read : ∀ {path v}, path ∈ numberPaths → IsNumber v → IsNumber ((d.at? path).getD v) := by
    intro path v hpath hv
    cases hd : d.at? path with
    | none => exact hv
    | some u => exact h.numbers path hpath u hd
  constructor
  case stiffness =>
    refine fun kind => read (mem_numberPaths kind).1 ⟨_, rfl, ?_⟩
    cases kind <;> decide
  case damping =>
    refine fun kind => read (mem_numberPaths kind).2 ⟨_, rfl, ?_⟩
    cases kind <;> decide
  all_goals exact read (by decide) ⟨_, rfl, by decide⟩

theorem overlay_congr {d d' : Value Float} (h : ∀ path ∈ knownPaths, d'.at? path = d.at? path) :
    overlay d' = overlay d := by
  have stiffness (kind : SpringKind) :=
    h _ (List.mem_append_left _ (mem_numberPaths kind).1)
  have damping (kind : SpringKind) :=
    h _ (List.mem_append_left _ (mem_numberPaths kind).2)
  have policy := h ["integration", "substep_policy"] (by decide)
  have substeps := h ["integration", "substeps"] (by decide)
  have maxSubstep := h ["integration", "max_substep_s"] (by decide)
  have friction := h ["integration", "friction"] (by decide)
  have lengthCap := h ["integration", "length_cap"] (by decide)
  have ends := h ["rail", "clamp_to_segment"] (by decide)
  simp only [overlay, stiffness, damping, policy, substeps, maxSubstep, friction, lengthCap, ends]

theorem load_eq {d : Value Float} (h : Sectioned d) : load d = (overlay d).checked := by
  rw [load, ofDocument_eq h]
  rfl

/-- A document is loaded as it lies over the standard settings, exactly if all rules hold of that;
otherwise the first rule that is broken is complained of. Nothing but the known paths of a document
is looked at. Whatever reads documents: a text is loaded as the document that it is read as. -/
theorem load_spec {d : Value Float} (h : Shaped d) :
    (∀ c, load d = .ok c ↔ c = overlay d ∧ ∀ r ∈ rules c, r.holds) ∧
      (∀ before r after, rules (overlay d) = before ++ r :: after → (∀ s ∈ before, s.holds) →
        ¬ r.holds → load d = .error (.invalidConfig r.misfit)) ∧
      (∀ d', Shaped d' → (∀ path ∈ knownPaths, d'.at? path = d.at? path) → load d' = load d) ∧
      ∀ (read : String → Except DocumentFault (Value Float)) (t : String), read t = .ok d →
        ofText read (some t) = load d := by
  have hkept := kept_complaints (numeric_overlay h)
  rw [load_eq h.toSectioned]
  refine ⟨fun c => ?_, fun before r after hsplit hold hr => ?_, fun d' h' hpaths => ?_,
    fun read t ht => ?_⟩
  · rw [checked_eq_ok_iff, ← check_eq_none_iff, check_eq, firstOf_eq_none hkept, and_comm]
    exact and_congr_right fun e => by rw [e]
  · rw [hsplit] at hkept
    rw [checked, check_eq, firstOf_eq_some hkept hold hr]
    rfl
  · rw [load_eq h'.toSectioned, overlay_congr hpaths]
  · rw [ofText]
    simp only [ht, load_eq h.toSectioned]

/-- Of two settings that are out of bounds the one is complained of that is looked at first. -/
theorem load_rail_damping :
    let d : Value Float := .mapping [
      (.text "integration", .mapping [(.text "substeps", .number (.whole 0))]),
      (.text "springs", .mapping [(.text "rail", .mapping [
        (.text "damping", .number (.whole (-1))), (.text "colour", .text "red")])])]
    Shaped d ∧ load d = .error (.invalidConfig (.dampingNegative .rail)) := by
  intro d
  have hd : Shaped d := by
    refine ⟨⟨rfl, ?_, ?_⟩, ?_⟩
    · simp [d, Value.at?, Value.lookup, Value.isKey, Value.isMapping]
    · intro kind
      cases kind <;>
        simp [d, SpringKind.name, Value.at?, Value.lookup, Value.isKey, Value.isMapping]
    · simp [d, numberPaths, SpringKind.all, SpringKind.name, Value.at?, Value.lookup, Value.isKey,
        IsNumber, Number.isNaN]
  have hsplit : rules (overlay d) = (rules (overlay d)).take 7 ++
      ⟨Meets (.number (.whole (-1))) (0.0 ≤ ·), .dampingNegative .rail⟩ ::
        (rules (overlay d)).drop 8 := rfl
  refine ⟨hd, (load_spec hd).2.1 _ _ _ hsplit ?_ ?_⟩
  · simp only [rules, SpringKind.all, List.flatMap_cons, List.cons_append, List.nil_append,
      List.take_succ_cons, List.take_zero, List.forall_mem_cons]
    refine ⟨?_, ?_, ?_, ?_, ?_, ?_, ?_, by simp⟩ <;> exact ⟨_, rfl, by decide⟩
  · rintro ⟨n, hn, hle⟩
    cases hn
    exact absurd hle (by decide)

end Settings

end Linkage
