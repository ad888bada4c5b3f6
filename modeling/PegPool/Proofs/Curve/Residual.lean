import Mathlib.Tactic.Linarith
import Mathlib.Tactic.Positivity
import Mathlib.Tactic.Ring
import PegPool.Curve.Invariant

/-!
# The shape of the curve equation

`residual a b amp t` falls in `t` and grows in either reserve as long as `t` is at most their sum.
So the total up to which it is not negative, the integer part of the exact invariant, is a threshold
that grows with the reserves.
-/

namespace PegPool.Curve

variable {a b amp : Int}

theorem residual_comm (a b amp t : Int) : residual a b amp t = residual b a amp t := by
  unfold residual
  ring

theorem residual_sub_residual (a b amp s t : Int) :
    residual a b amp s - residual a b amp t =
      (t - s) * (4 * a * b * (2 * amp - 1) + (s ^ 2 + s * t + t ^ 2)) := by
  unfold residual
  ring

theorem residual_anti (aPos : 1 ≤ a) (bPos : 1 ≤ b) (ampPos : 1 ≤ amp) {s t : Int}
    (nonneg : 0 ≤ s) (le : s ≤ t) : residual a b amp t ≤ residual a b amp s := by
  have difference := residual_sub_residual a b amp s t
  have gap : 0 ≤ t - s := by omega
  have slope : 0 ≤ 4 * a * b * (2 * amp - 1) + (s ^ 2 + s * t + t ^ 2) := by
    have : 0 ≤ 2 * amp - 1 := by omega
    have : 0 ≤ t := by omega
    positivity
  have := mul_nonneg gap slope
  omega

/-- Below a total that the residual has not passed lies every total that it has. -/
theorem le_of_residual (aPos : 1 ≤ a) (bPos : 1 ≤ b) (ampPos : 1 ≤ amp) {s t : Int}
    (nonneg : 0 ≤ t) (before : 0 ≤ residual a b amp s) (after : residual a b amp (t + 1) < 0) :
    s ≤ t := by
  by_contra more
  have := residual_anti aPos bPos ampPos (s := t + 1) (t := s) (by omega) (by omega)
  omega

theorem residual_one_pos (aPos : 1 ≤ a) (bPos : 1 ≤ b) (ampPos : 1 ≤ amp) :
    0 < residual a b amp 1 := by
  have product : 1 ≤ a * b := by nlinarith
  have factor : 2 ≤ 2 * amp * (a + b) + 1 - 2 * amp * 1 := by nlinarith
  have := mul_le_mul product factor (by norm_num) (by omega)
  unfold residual
  linarith

/-- The residual grows with a reserve, up to totals of the sum of the reserves. -/
theorem residual_mono_right (aPos : 1 ≤ a) (bPos : 1 ≤ b) (ampPos : 1 ≤ amp) {b' t : Int}
    (le : b ≤ b') (nonneg : 0 ≤ t) (atMost : t ≤ a + b) :
    residual a b amp t ≤ residual a b' amp t := by
  have difference : residual a b' amp t - residual a b amp t =
      4 * a * ((b' - b) * (2 * amp * (a + b + b' - t) + t)) := by
    unfold residual
    ring
  have gap : 0 ≤ b' - b := by omega
  have room : 0 ≤ a + b + b' - t := by omega
  have : 0 ≤ 4 * a * ((b' - b) * (2 * amp * (a + b + b' - t) + t)) := by positivity
  omega

end PegPool.Curve
