import PegPool.Exchange

/-!
# Examining a withdrawal

A withdrawal in one asset charges a fee on a move that never happens and then solves the curve
again, so its safety at extremes is put to the test. It must leave something of the reserve, must
not lower the invariant that each remaining share holds, and must not pay less than a smaller burn.
-/

namespace PegPool.Probe

/-- What a series of probes came to. -/
structure Tally where
  cases : Nat := 0
  failures : Nat := 0
  violations : Nat := 0
deriving DecidableEq, Repr

def Tally.add (s t : Tally) : Tally :=
  ⟨s.cases + t.cases, s.failures + t.failures, s.violations + t.violations⟩

/-- A computation that only tells whether a demand is violated. -/
abbrev Check := Traced Empty Bool

/-- A violation, with the event that tells of it. -/
def violated (e : Event) : Check := do
  Traced.log e
  return true

def withdrawal (cap : Nat) (fees : Fees) (b : Burn) : Traced Empty (Option Exchange.Withdrawal) :=
  (Exchange.withdrawOne cap fees b.amp b.share b.supply b.base b.quote).attempt

/-- Checks that paying `dy` does not lower the invariant of each remaining share. -/
def checkDilution (cap : Nat) (b : Burn) (dy : Nat) : Check := do
  let before ← (Curve.invariant cap b.base b.quote b.amp).attempt
  let after ← (Curve.invariant cap (b.base - dy : Int) b.quote b.amp).attempt
  match before, after with
  | some d0, some d1 =>
      if d1 * b.supply < d0 * (b.supply - b.share) then violated (.sharesDiluted d0 d1 dy b)
      else return false
  | _, _ => return false

/-- Checks that burning one share less does not pay more than `dy`. -/
def checkPayout (cap : Nat) (fees : Fees) (b : Burn) (dy : Nat) : Check := do
  match ← withdrawal cap fees { b with share := b.share - 1 } with
  | some smaller =>
      if dy < smaller.dy then violated (.payoutNotMonotone dy smaller.dy b) else return false
  | none => return false

/-- Examines a withdrawal.  Nothing more is asked of one that takes the whole reserve. -/
def examine (cap : Nat) (fees : Fees) (b : Burn) : Traced Empty Tally := do
  match ← withdrawal cap fees b with
  | none =>
      Traced.log (.burnFailed b)
      return { cases := 1, failures := 1 }
  | some w =>
      if b.base ≤ w.dy then
        let drained ← violated (.reserveDrained w.dy b)
        return { cases := 1, violations := drained.toNat }
      else
        let diluted ← if b.share < b.supply then checkDilution cap b w.dy else pure false
        let cheaper ← if 1 < b.share then checkPayout cap fees b w.dy else pure false
        return { cases := 1, violations := diluted.toNat + cheaper.toNat }

end PegPool.Probe
