import PegPool.Curve.Invariant

/-!
# One reserve from the other

Given one reserve `x`, the invariant `d` and the coefficient, the other reserve is the root of
`t² + (b - d) t - c` with `c = ⌊⌊d² / 2x⌋ d / 2ann⌋` and `b = ⌊d / ann⌋ + x`, where `ann` is twice
the coefficient (`reserveResidual`).  `otherReserve` approaches it from `d` by Newton steps.
-/

namespace PegPool.Curve

def reserveConstant (x d amp : Int) : Int :=
  (d * d).fdiv (2 * x) * d |>.fdiv (2 * (2 * amp))

def reserveSlope (x d amp : Int) : Int :=
  d.fdiv (2 * amp) + x

def reserveResidual (x d amp t : Int) : Int :=
  t * t + (reserveSlope x d amp - d) * t - reserveConstant x d amp

/-- One Newton step from `y`: `y ↦ (y² + c) / (2y + b - d)`. -/
def reserveStep (b c d y : Word) : Except Fault Word := do
  let numerator ← (← y.mul y).add c
  let denominator ← (← (← y.mul 2).add b).sub d
  numerator.div denominator

/-- The reserve that makes the invariant `d` together with the reserve `x`, in a word. -/
def otherReserve (cap : Nat) (x d amp : Operand) : Traced Fault Nat := do
  let ann ← leverage amp
  let rx ← Word.read x
  let twoX ← (← rx.mul 2).narrowed
  let rd ← Word.read d
  let c ← (← rd.mul rd).div twoX
  let c ← (← c.mul rd).div (← ann.mul 2)
  let b ← (← rd.div ann).add rx
  let root ← settle (reserveStep b c rd) cap rd
  unless root.converged do
    Traced.log (.reserveUnsettled x.value d.value amp.value cap root.value.val)
  return root.value.val

/-- The reserve that makes the invariant `d` together with the reserve `x`, in 64 bits. -/
def otherAmount (cap : Nat) (x d amp : Operand) : Traced Fault Nat := do
  let y ← otherReserve cap x d amp
  (← Word.ofInt y).narrow

/-- What the pool gives for `amountIn`, before fees and rounding: the destination reserve less the
one that keeps the invariant. -/
def output (cap : Nat) (amountIn source destination amp : Operand) : Traced Fault Nat := do
  let d ← invariant cap source destination amp
  let newSource ← (← (← Word.read source).add (← Word.read amountIn)).narrow
  let y ← otherAmount cap newSource d amp
  return (← (← Word.read destination).sub y).val

end PegPool.Curve
