import Linkage.Failure

/-!
# Settings as written

A settings document is a mapping of sections. `Settings.ofDocument` lays it over the standard
settings: what it does not say keeps its standard value, and what it says beside that is passed
over. `Settings.check` finds the first thing that makes settings unfit for use; a value that is no
number fails as soon as it is compared. `Settings.load` does both, and `Settings.ofText` does both
on what a reader of documents makes of a text.
-/

namespace Linkage

/-- Settings before anything is known about their values. -/
structure Settings (K : Type) where
  stiffness : SpringKind → Value K
  damping : SpringKind → Value K
  policy : Value K
  substeps : Value K
  maxSubstep : Value K
  friction : Value K
  lengthCap : Value K
  railsEnd : Bool

namespace SubstepPolicy

def ofName (name : String) : SubstepPolicy :=
  if name = "fixed_count" then fixedCount
  else if name = "max_duration" then maxDuration
  else other

end SubstepPolicy

namespace Settings

variable {K : Type} [Scalar K]

def standard : Settings K where
  stiffness kind := .number (.real (Constants.standard kind).stiffness)
  damping kind := .number (.real (Constants.standard kind).damping)
  policy := .text "fixed_count"
  substeps := .number (.whole 25)
  maxSubstep := .number (.real (1.0 / 1500.0))
  friction := .number (.real 5.0)
  lengthCap := .number (.real 10.0)
  railsEnd := false

/-! ### Documents -/

def entries : Value K → Except (Failure K) (List (Value K × Value K))
  | .mapping es => .ok es
  | _ => .error .notAMapping

/-- A section of a document; one that is left out is empty. -/
def part (name : String) (es : List (Value K × Value K)) :
    Except (Failure K) (List (Value K × Value K)) :=
  match Value.lookup name es with
  | some v => entries v
  | none => .ok []

def written (es : List (Value K × Value K)) (name : String) (standard : Value K) : Value K :=
  (Value.lookup name es).getD standard

/-- Only `d` is laid over the standard settings. A document that says nothing counts as empty. -/
def ofDocument (d : Value K) : Except (Failure K) (Settings K) := do
  let es ← if d.isTrue then entries d else pure []
  let springs ← part "springs" es
  let distance ← part SpringKind.distance.name springs
  let affix ← part SpringKind.affix.name springs
  let followPencil ← part SpringKind.followPencil.name springs
  let rail ← part SpringKind.rail.name springs
  let constants : SpringKind → List (Value K × Value K)
    | .distance => distance
    | .affix => affix
    | .followPencil => followPencil
    | .rail => rail
  let stepping ← part "integration" es
  let ends ← part "rail" es
  return {
    stiffness := fun kind => written (constants kind) "stiffness" (standard.stiffness kind)
    damping := fun kind => written (constants kind) "damping" (standard.damping kind)
    policy := written stepping "substep_policy" standard.policy
    substeps := written stepping "substeps" standard.substeps
    maxSubstep := written stepping "max_substep_s" standard.maxSubstep
    friction := written stepping "friction" standard.friction
    lengthCap := written stepping "length_cap" standard.lengthCap
    railsEnd := (written ends "clamp_to_segment" (.number (.flag false))).isTrue }

/-! ### Fitness for use -/

/-- The complaint `m` if the number compares as `p` says. -/
def complain (v : Value K) (p : K → Bool) (m : Misfit K) : Except (Failure K) (Option (Misfit K)) :=
  (asNumber v.number?).map fun n => if p n.val then some m else none

/-- The first complaint of a list; what comes after it is not looked at. -/
def firstOf : List (Unit → Except (Failure K) (Option (Misfit K))) →
    Except (Failure K) (Option (Misfit K))
  | [] => .ok none
  | c :: cs =>
    match c () with
    | .ok none => firstOf cs
    | r => r

def isPolicy : Value K → Bool
  | .text name => SubstepPolicy.ofName name != .other
  | _ => false

/-- The stiffness of a kind is looked at before its damping. -/
def checkKind (c : Settings K) (kind : SpringKind) : Except (Failure K) (Option (Misfit K)) :=
  firstOf [
    fun _ => complain (c.stiffness kind) (fun x => decide (x ≤ 0.0)) (.stiffnessNotPositive kind),
    fun _ => complain (c.damping kind) (fun x => decide (x < 0.0)) (.dampingNegative kind)]

def checkSprings (c : Settings K) : Except (Failure K) (Option (Misfit K)) :=
  firstOf (SpringKind.all.map fun kind _ => c.checkKind kind)

def checkIntegration (c : Settings K) : Except (Failure K) (Option (Misfit K)) :=
  firstOf [
    fun _ => .ok (if isPolicy c.policy then none else some (.unknownPolicy c.policy)),
    fun _ => complain c.substeps (fun x => decide (x < 1.0)) .tooFewSubsteps,
    fun _ => complain c.maxSubstep (fun x => decide (x ≤ 0.0)) .maxSubstepNotPositive,
    fun _ => complain c.friction (fun x => decide (x < 0.0)) .frictionNegative,
    fun _ => complain c.lengthCap (fun x => decide (x ≤ 0.0)) .lengthCapNotPositive]

/-- Nothing about rails is unfit for use. -/
def check (c : Settings K) : Except (Failure K) (Option (Misfit K)) :=
  firstOf [fun _ => c.checkSprings, fun _ => c.checkIntegration]

def checked (c : Settings K) : Except (Failure K) (Settings K) := do
  match ← c.check with
  | none => return c
  | some m => throw (.invalidConfig m)

def load (d : Value K) : Except (Failure K) (Settings K) := do
  (← ofDocument d).checked

/-- Settings fit for use, from the text of a settings document if there is one. -/
def ofText (read : String → Except DocumentFault (Value K)) (text : Option String) :
    Except (Failure K) (Settings K) :=
  match text with
  | none => .error .noDocument
  | some t =>
    match read t with
    | .error f => .error (.malformedDocument f)
    | .ok d => load d

def constants? (c : Settings K) (kind : SpringKind) : Option (Constants K) := do
  return ⟨(← (c.stiffness kind).number?).val, (← (c.damping kind).number?).val⟩

/-- Every value is read as what the solver takes it for. -/
def toConfig (c : Settings K) : Config K where
  constants := c.constants?
  stepping :=
    { policy := match c.policy with
        | .text name => .ofName name
        | _ => .other
      substeps := c.substeps
      maxSubstep := c.maxSubstep.number?.map Number.val
      friction := c.friction.number?.map Number.val
      lengthCap := c.lengthCap.number?.map Number.val }
  railsEnd := c.railsEnd

end Settings

end Linkage
