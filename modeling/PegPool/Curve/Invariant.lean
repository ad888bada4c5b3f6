import PegPool.Curve.Settle

/-!
# The invariant of a pool

For reserves `a` and `b` and coefficient `amp` the invariant `D` is the root of

  `4ab (2·amp·(a + b) + t - 2·amp·t) - t³`

(`residual`), the total at which the pool would hold equal amounts of both assets.  `invariant`
approaches it in integers from `a + b` by the Newton step `invariantStep`.
-/

namespace PegPool.Curve

/-- The curve equation at `t`: positive below the invariant of `a` and `b`, negative above it. -/
def residual (a b amp t : Int) : Int :=
  4 * a * b * (2 * amp * (a + b) + t - 2 * amp * t) - t * t * t

/-- Twice the coefficient, in 64 bits. -/
def leverage (amp : Operand) : Except Fault Word := do
  (← (← Word.read amp).mul 2).narrowed

/-- One Newton step from `d`, for reserves with sum `sum` and doubles `twoA` and `twoB`:
`d ↦ d (2p + sum·ann) / (d (ann - 1) + 3p)`, where `ann` is twice the coefficient and `p` is
`d³ / (4ab)`, divided by one reserve at a time. -/
def invariantStep (amp : Operand) (sum twoA twoB d : Word) : Except Fault Word := do
  let p ← (← d.mul d).div twoA
  let p ← (← p.mul d).div twoB
  let ann ← leverage amp
  let pull ← sum.mul ann
  let numerator ← d.mul (← (← p.mul 2).add pull)
  let denominator ← (← d.mul (← ann.sub 1)).add (← p.mul 3)
  numerator.div denominator

/-- The invariant of the reserves `a` and `b`: zero for an empty pool, a fault for a pool with one
empty reserve.  A value at which the cap ends the iteration is given with an event. -/
def invariant (cap : Nat) (a b amp : Operand) : Traced Fault Nat := do
  let ra ← Word.read a
  let rb ← Word.read b
  let sum ← (← ra.add rb).narrowed
  if sum.val = 0 then return 0
  let twoA ← (← ra.mul 2).narrowed
  let twoB ← (← rb.mul 2).narrowed
  let root ← settle (invariantStep amp sum twoA twoB) cap sum
  unless root.converged do
    Traced.log (.invariantUnsettled a.value b.value amp.value cap root.value.val)
  return root.value.val

end PegPool.Curve
