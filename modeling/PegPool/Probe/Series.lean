import PegPool.Probe.Draws
import PegPool.Probe.Examination
import PegPool.Ramp

/-!
# A series of probes

Draws pools and burns and examines them one after the other.  Reserves differ by up to a factor of a
thousand, coefficients are spread evenly over their orders of magnitude, and burns are mostly small
with the whole supply and its neighbours among them.
-/

namespace PegPool.Probe

/-! ## Drawing a case -/

def maxReserve : Int := 1000000000000000

def drawReserves : Draw (Int × Int) := do
  let base ← between 1 maxReserve
  let factor ← between 1 1000
  let divisor ← between 1 1000
  return (base, max 1 (min maxReserve ((base * factor).fdiv divisor)))

/-- The greatest number with a downward closed property, found bit by bit from `n` on. -/
def greatest (p : Nat → Bool) : (bits : Nat) → (n : Nat) → Nat
  | 0, n => n
  | bits + 1, n => greatest p bits (if p (n + 1 <<< bits) then n + 1 <<< bits else n)

/-- The power of ten with exponent `6k / 1024`, rounded down. -/
def powerOfTen (k : Nat) : Nat :=
  greatest (fun n => decide (n.pow (parts / 2) ≤ Nat.pow 10 (3 * k))) 20 0

def drawAmp : Draw Int := do
  let k ← part
  let policy : RampPolicy := {}
  return max policy.minAmp (min policy.maxAmp (powerOfTen k))

/-- Draws the pool tokens to burn of a supply. A tenth of the draws takes all of them, a tenth
nearly all, a tenth very few. -/
def drawShare (supply : Int) : Draw Int := do
  let k ← part
  if k.val * 10 < parts then return supply
  else if k.val * 10 < 2 * parts then
    let kept ← between 1 1000
    return max 1 (supply - kept)
  else if k.val * 10 < 3 * parts then between 1 1000
  else between 1 supply

def rateDenominator : Nat := 10000

/-- Draws a rate with a numerator up to `most`. -/
def drawRate (most : Nat) (h : most ≤ rateDenominator) : Draw Rate := do
  let n ← upTo most
  return ⟨⟨n.val, by have := n.property; unfold rateDenominator at h; omega⟩,
    ⟨rateDenominator, by decide⟩⟩

/-- Draws a fee schedule: the administrator gets any share of fees of up to one percent. -/
def drawFees : Draw Fees := do
  let adminTrade ← drawRate 10000 (by decide)
  let adminWithdraw ← drawRate 10000 (by decide)
  let trade ← drawRate 100 (by decide)
  let withdraw ← drawRate 100 (by decide)
  return ⟨adminTrade, adminWithdraw, trade, withdraw⟩

/-! ## Running -/

/-- Draws a pool and a burn and examines it.  The supply is the invariant of the pool; without one
there is nothing to burn. -/
def probe (cap : Nat) : Draw (Traced Empty Tally) := do
  let (base, quote) ← drawReserves
  let amp ← drawAmp
  let supply : Traced Empty (Option Nat) := (Curve.invariant cap base quote amp).attempt
  match supply.value with
  | some (n + 1) =>
      let share ← drawShare (n + 1 : Nat)
      let fees ← drawFees
      return supply.andThen fun _ => examine cap fees ⟨amp, share, (n + 1 : Nat), base, quote⟩
  | _ => return supply.andThen fun _ => .ok { failures := 1 }

structure Series where
  draws : Draws
  tally : Tally := {}
  /-- What happened, the latest first. -/
  events : List Event := []

namespace Series

def step (cap : Nat) (s : Series) : Series :=
  let (x, draws) := (probe cap).run s.draws
  ⟨draws, s.tally.add x.value, x.events.reverse ++ s.events⟩

/-- Adds a number of probes. -/
def run (cap : Nat) : Nat → Series → Series
  | 0, s => s
  | n + 1, s => run cap n (s.step cap)

end Series

/-- The tally of a number of probes, and what happened. -/
def runSeries (cap : Nat) (iterations : Nat) (draws : Draws) : Traced Empty Tally :=
  let s := Series.run cap iterations { draws }
  ⟨s.events.reverse, .ok s.tally⟩

end PegPool.Probe
