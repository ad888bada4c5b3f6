import PegPool.Traced
import PegPool.Word

/-!
# The coefficient and its ramp

The coefficient of the curve moves on a straight line from `initial` at time `start` to `target` at
time `stop`, with the distance moved rounded down. Before, after, and where start and stop agree it
is `target`.

`Ramp.restart` and `Ramp.freeze` are the two ways to change a ramp. Both begin at the coefficient
in effect, and the first only within a `RampPolicy`. A refusal whose numbers cannot be written fails
with that (`RampError.told`).
-/

namespace PegPool

/-- The course of the coefficient. -/
@[ext]
structure Ramp where
  /-- The coefficient at `start`. -/
  initial : Nat
  /-- The coefficient from `stop` on. -/
  target : Nat
  start : Int
  stop : Int
  /-- The line does not run backward. -/
  start_le_stop : start ≤ stop
deriving DecidableEq, Repr

/-- Why four numbers are no ramp. -/
inductive RampFault where
  | negativeCoefficient
  /-- The line would end before it begins. -/
  | backward (start stop : Int)
deriving DecidableEq, Repr

def RampFault.message : RampFault → String
  | negativeCoefficient => "Amplification coefficients must be non-negative"
  | backward start stop =>
      Text.showing [stop, start] s!"stop_ramp_ts {stop} is before start_ramp_ts {start}"

/-- The bounds within which a ramp may be started. -/
structure RampPolicy where
  minAmp : Int := 1
  maxAmp : Int := 1000000
  /-- The seconds that a ramp lasts at least, and that pass before the next one starts. -/
  minDuration : Int := 86400
  /-- The factor by which one ramp may raise or lower the coefficient. -/
  maxChange : Int := 10
deriving DecidableEq, Repr

def RampPolicy.contains (p : RampPolicy) (amp : Int) : Bool :=
  decide (p.minAmp ≤ amp) && decide (amp ≤ p.maxAmp)

inductive RampError where
  /-- The ramp before it started too recently. -/
  | locked (unlocked now : Int)
  | tooShort (minimum stop now : Int)
  | outOfBounds (target minAmp maxAmp : Int)
  /-- It would move the coefficient too far. -/
  | tooFar (target current maxChange : Int)
  | malformed (fault : RampFault)
  /-- A refusal has a number that cannot be written. -/
  | unwritable
deriving DecidableEq, Repr

namespace RampError

/-- The kind under which a caller is told of the error; the last two are failures of the library and
have none. -/
def kind? : RampError → Option String
  | locked .. => some "ramp_locked"
  | tooShort .. => some "insufficient_ramp_time"
  | outOfBounds .. | tooFar .. => some "invalid_input"
  | malformed _ | unwritable => none

def message : RampError → String
  | locked unlocked now => s!"Ramp locked until {unlocked}, now {now}"
  | tooShort minimum stop now => s!"Ramp must last at least {minimum}s, stop {stop} now {now}"
  | outOfBounds target minAmp maxAmp => s!"Target amp {target} outside [{minAmp}, {maxAmp}]"
  | tooFar target current maxChange =>
      s!"Target amp {target} moves current {current} by more than {maxChange}x"
  | malformed fault => fault.message
  | unwritable => Text.limitNotice

def numbers : RampError → List Int
  | locked unlocked now => [unlocked, now]
  | tooShort minimum stop now => [minimum, stop, now]
  | outOfBounds target minAmp maxAmp => [target, minAmp, maxAmp]
  | tooFar target current maxChange => [target, current, maxChange]
  | malformed _ | unwritable => []

/-- The error as its caller meets it. -/
def told (e : RampError) : RampError :=
  if e.numbers.all Text.isWritable then e else unwritable

end RampError

namespace Ramp

/-- The ramp of four numbers, if they are one. -/
def make (initial target start stop : Int) : Except RampFault Ramp :=
  if initial < 0 ∨ target < 0 then .error .negativeCoefficient
  else if h : start ≤ stop then .ok ⟨initial.toNat, target.toNat, start, stop, h⟩
  else .error (.backward start stop)

def fixed (amp : Int) : Except RampFault Ramp :=
  make amp amp 0 0

/-- The ramp has a line, not only a point in time. -/
def isRamping (r : Ramp) : Bool :=
  r.start != r.stop

/-- `now` is on the line, its end excepted. -/
def onLine (r : Ramp) (now : Int) : Prop :=
  r.start ≤ now ∧ now < r.stop

instance (r : Ramp) (now : Int) : Decidable (r.onLine now) :=
  inferInstanceAs (Decidable (_ ∧ _))

/-- What the line has moved by `now` of a whole distance, rounded down. -/
def moved (r : Ramp) (distance : Nat) (now : Int) : Nat :=
  distance * (now - r.start).toNat / (r.stop - r.start).toNat

/-- The coefficient in effect at `now`. -/
def factor (r : Ramp) (now : Int) : Nat :=
  if r.onLine now then
    if r.initial ≤ r.target then r.initial + r.moved (r.target - r.initial) now
    else r.initial - r.moved (r.initial - r.target) now
  else r.target

/-- The target is further from `current` than the factor allows. -/
def tooFar (target current maxChange : Int) : Bool :=
  (decide (current ≤ target) && decide (current * maxChange < target)) ||
    (decide (target < current) && decide (target * maxChange < current))

/-- Starts a ramp at `now` from the coefficient in effect. -/
def restart (r : Ramp) (policy : RampPolicy) (target stop now : Int) : Traced RampError Ramp := do
  if now < r.start + policy.minDuration then
    throw (RampError.locked (r.start + policy.minDuration) now).told
  if stop < now + policy.minDuration then
    throw (RampError.tooShort policy.minDuration stop now).told
  if !policy.contains target then
    throw (RampError.outOfBounds target policy.minAmp policy.maxAmp).told
  let current := r.factor now
  if tooFar target current policy.maxChange then
    throw (RampError.tooFar target current policy.maxChange).told
  Traced.log (.rampStarted current target now stop)
  Traced.lift ((make current target now stop).mapError .malformed)

/-- Keeps the coefficient in effect at `now`. -/
def freeze (r : Ramp) (now : Int) : Ramp :=
  ⟨r.factor now, r.factor now, now, now, Int.le_refl now⟩

def freezeTraced {ε : Type} (r : Ramp) (now : Int) : Traced ε Ramp :=
  ⟨[.rampStopped (r.factor now) now], .ok (r.freeze now)⟩

end Ramp

end PegPool
