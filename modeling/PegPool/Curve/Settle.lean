import PegPool.Traced
import PegPool.Word

/-!
# Iterating until two values agree

Both equations of the curve are solved by repeating a step until it moves its value by at most one.
A cap bounds the number of steps; `Settled.converged` tells whether the step or the cap ended the
iteration.
-/

namespace PegPool.Curve

structure Settled where
  value : Word
  /-- The last two values differ by at most one. -/
  converged : Bool
deriving DecidableEq, Repr

def close (x y : Word) : Bool :=
  decide (x.val ≤ y.val + 1 ∧ y.val ≤ x.val + 1)

/-- Repeats `step` until two successive values differ by at most one, at most `cap` times. -/
def settle (step : Word → Except Fault Word) : (cap : Nat) → Word → Except Fault Settled
  | 0, x => .ok ⟨x, false⟩
  | cap + 1, x => match step x with
    | .error e => .error e
    | .ok y => if close y x then .ok ⟨y, true⟩ else settle step cap y

def defaultCap : Nat := 256

end PegPool.Curve
