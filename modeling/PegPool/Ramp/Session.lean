import PegPool.Ramp

/-!
# A run of ramp operations

A `Ramp.Step` is one operation on the current ramp or one question about it.  A step that fails
leaves the ramp as it was (`Ramp.Step.after`), so a run is a fold (`Ramp.run`).
-/

namespace PegPool.Ramp

/-- An operation on a ramp or a question about it. -/
inductive Step where
  | restart (policy : RampPolicy) (target stop now : Int)
  | freeze (now : Int)
  /-- Put another ramp in place. -/
  | replace (initial target start stop : Int)
  | factor (now : Int)
  | isRamping
  /-- Ask whether a policy allows a coefficient. -/
  | contains (policy : RampPolicy) (target : Int)
deriving DecidableEq, Repr

inductive Answer where
  | ramp (r : Ramp)
  | factor (amp : Nat)
  | flag (b : Bool)
deriving DecidableEq, Repr

def Step.run (r : Ramp) : Step → Traced RampError (Ramp × Answer)
  | restart policy target stop now => do
      let next ← r.restart policy target stop now
      return (next, .ramp next)
  | freeze now => do
      let next ← r.freezeTraced now
      return (next, .ramp next)
  | replace initial target start stop => do
      let next ← Traced.lift ((make initial target start stop).mapError .malformed)
      return (next, .ramp next)
  | factor now => return (r, .factor (r.factor now))
  | isRamping => return (r, .flag r.isRamping)
  | contains policy target => return (r, .flag (policy.contains target))

/-- The ramp after a step; a step that fails changes nothing. -/
def Step.after (r : Ramp) (s : Step) : Ramp :=
  match (s.run r).outcome with
  | .ok (next, _) => next
  | .error _ => r

def run (r : Ramp) (steps : List Step) : Ramp :=
  steps.foldl Step.after r

end PegPool.Ramp
