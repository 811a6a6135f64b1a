import Linkage.Scene.Edit

/-!
# A frame

`advance dt` moves a scene on by one frame. Every spring is relaxed, then in each sub-step all
springs look at their endpoints and all nodes move, and at the end the expired springs are removed.
A frame of no or negative length does nothing at all.
-/

namespace Linkage

variable {K : Type} [Scalar K]

/-- The least count of sub-steps that keeps each one of a frame of length `dt` within `longest`. -/
def leastCount (dt longest : K) : Except (Failure K) Int := do
  match Scalar.ceil (← divide dt longest) with
  | .ok n => return max 1 n
  | .error .infinite => throw .infiniteCount
  | .error .undefined => throw .undefinedCount

/-- As many sub-steps as a frame of length `dt` is split into. A fixed count is given out as it was
written, even if it is no number. -/
def Stepping.stepsFor (c : Stepping K) (dt : K) : Except (Failure K) (Value K) :=
  match c.policy with
  | .maxDuration => do
    let n ← leastCount dt (← asNumber c.maxSubstep)
    return .number (.whole n)
  | _ => .ok c.substeps

/-- How often something is done by this count; a count that is not whole is none. -/
def Number.times : Number K → Except (Failure K) Nat
  | .whole n => .ok n.toNat
  | .flag b => .ok b.toNat
  | .real _ => .error .notANumber

namespace Scene

open Act

def observe (f : Spring K → Point K → Point K → Except (Failure K) (Spring K)) (r : Ref) :
    Act K (Scene K) Unit := do
  let w ← read
  let s := w.spring r
  let (a, b) ← ofExcept (w.ends s)
  let s' ← ofExcept (f s a b)
  change (·.setSpring r s')

/-- The start of a frame. The cap is needed only where there are springs. -/
def relax (cap : Option K) : Act K (Scene K) Unit := do
  forEach (observe fun s a b => (asNumber cap).map (s.relaxed a b)) (← read).graph.listed

/-- A spring whose force cannot be computed is displaced all the same. -/
def strainOne (h : K) (cap : Option K) (r : Ref) : Act K (Scene K) Unit := do
  observe (fun s a b => (asNumber cap).bind (s.displaced a b h)) r
  observe (fun s a b => s.loaded a b) r

def strain (h : K) (cap : Option K) : Act K (Scene K) Unit := do
  forEach (strainOne h cap) (← read).graph.listed

def move (w : Scene K) (friction h : K) : Scene K :=
  w.mapNodes (·.moved w.springOf friction h)

/-- Friction is needed only where there are nodes. -/
def substep (c : Stepping K) (h : K) : Act K (Scene K) Unit := do
  strain h c.lengthCap
  if (← read).graph.nodes.isEmpty then pure ()
  else
    let friction ← ofExcept (asNumber c.friction)
    change (·.move friction h)

def sweep : Act K (Scene K) Unit := do
  let w ← read
  forEach deleteListed (w.graph.listed.filter fun r => (w.spring r).expired)

def advance (dt : K) : Act K (Scene K) Unit := do
  if dt ≤ 0.0 then pure ()
  else
    let c := (← read).graph.config.stepping
    let steps ← ofExcept ((c.stepsFor dt).bind fun v => asNumber v.number?)
    let h ← ofExcept (divide dt steps.val)
    relax c.lengthCap
    let n ← ofExcept steps.times
    times n (substep c h)
    sweep
    let w ← read
    report (.frame dt steps w.graph.nodes.length w.graph.listed.length)

/-- Every listed spring is within its bounds, up to a tolerance. -/
def allWithin (w : Scene K) (tolerance : K) : Except (Failure K) Bool :=
  go w.members
where
  go : List (Spring K) → Except (Failure K) Bool
    | [] => .ok true
    | s :: ss => do
      let (a, b) ← w.ends s
      if s.isWithin a b tolerance then go ss else return false

end Scene

end Linkage
