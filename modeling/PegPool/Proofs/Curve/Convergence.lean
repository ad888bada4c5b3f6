import PegPool.Proofs.Curve.Settling

/-!
# When the invariant is accurate

Where the divisions of a Newton step lose even less than at a mild value, the step is `Tame`: it does
not leave the exact invariant by more than one any more (`NewtonStep.climb_of_tame`), so that it
cannot swing, and where it settles it is accurate (`NewtonStep.accurate`).  If every value on the way
is tame, the iteration settles within one unit of the exact invariant (`settlesWithinOne_of_tame`).
-/

namespace PegPool.Curve

variable {a b amp : Int}

/-- The calculated invariant is within one unit of the exact one. -/
def WithinOneUnit (a b amp : Int) : Prop :=
  ∃ d : Nat, (invariant defaultCap a b amp).outcome = .ok d ∧
    0 < residual a b amp (d - 1) ∧ residual a b amp (d + 1) < 0

/-- The iteration ends by itself, and within one unit of the exact invariant. -/
def SettlesWithinOne (a b amp : Int) : Prop :=
  ∃ d : Nat, invariant defaultCap a b amp = Traced.ok d ∧
    0 < residual a b amp (d - 1) ∧ residual a b amp (d + 1) < 0

theorem SettlesWithinOne.settles (settles : SettlesWithinOne a b amp) : Settles a b amp := by
  obtain ⟨d, calculated, -⟩ := settles
  exact ⟨d, calculated⟩

theorem SettlesWithinOne.withinOneUnit (settles : SettlesWithinOne a b amp) :
    WithinOneUnit a b amp := by
  obtain ⟨d, calculated, near⟩ := settles
  exact ⟨d, congrArg Traced.outcome calculated, near⟩

/-- What the divisions may lose at `d`, a few times over, is less than the slope of the curve. -/
def Tame (a b amp d : Int) : Prop :=
  (d + 6) * (4 * a * b - 2 * a + (2 * a - 1) * d) + 3 * d ^ 2 + d ≤
    4 * a * b * (2 * amp - 1) * d + 3 * d ^ 3

namespace NewtonStep

variable {d p e : Int}

theorem loss_le (newton : NewtonStep a b amp d p e) (tame : Tame a b amp d) (dPos : 1 ≤ d) :
    (d + 6) * (d ^ 3 - 4 * a * b * p) + 3 * d ^ 2 + d ≤ 4 * a * b * (2 * amp - 1) * d + 3 * d ^ 3 := by
  have := mul_le_mul_of_nonneg_left newton.lossLe (show 0 ≤ d + 6 by omega)
  unfold Tame at tame
  linarith

/-- From above a total that the residual has passed, a tame step closes a third of the distance. -/
theorem fall_of_tame (newton : NewtonStep a b amp d p e) (tame : Tame a b amp d) (aPos : 1 ≤ a)
    (bPos : 1 ≤ b) (ampPos : 1 ≤ amp) (dPos : 1 ≤ d) {u : Int} (uNonneg : 0 ≤ u) (le : u ≤ d)
    (passed : residual a b amp u ≤ 0) : 3 * (e - d) + (d - u) < 3 := by
  apply newton.fall_lt aPos bPos ampPos dPos uNonneg le passed (by norm_num)
  have lossDistance := mul_nonneg (show 0 ≤ d by omega) (sub_nonneg.mpr newton.lossNonneg)
  linarith [newton.loss_le tame dPos, newton.lossNonneg, sq_nonneg d]

/-- From the last total before the exact invariant, a tame step does not go up by more than one. -/
theorem climb_of_tame (newton : NewtonStep a b amp d p e) (tame : Tame a b amp d) (aPos : 1 ≤ a)
    (bPos : 1 ≤ b) (dPos : 1 ≤ d) (after : residual a b amp (d + 1) < 0) : e ≤ d + 1 := by
  apply newton.climb_le aPos bPos dPos after (by norm_num)
  linarith [newton.loss_le tame dPos]

/-- A tame step that moves its value by at most one ends within one unit of the exact invariant. -/
theorem accurate (newton : NewtonStep a b amp d p e) (tame : Tame a b amp d) (aPos : 1 ≤ a)
    (bPos : 1 ≤ b) (ampPos : 1 ≤ amp) (dPos : 1 ≤ d) (ePos : 1 ≤ e) (below : d ≤ e + 1)
    (above : e ≤ d + 1) : 0 < residual a b amp (e - 1) := by
  by_contra missed
  have lossLe := newton.loss_le tame dPos
  have lossNonneg := newton.lossNonneg
  have step := newton.mul_slope_le aPos bPos
  have difference := residual_sub_residual a b amp (e - 1) d
  obtain rfl | rfl | rfl : e = d + 1 ∨ e = d ∨ e = d - 1 := by omega
  · have := newton.fall_of_tame tame aPos bPos ampPos dPos (u := d) (by omega) le_rfl (by
      rw [add_sub_cancel_right] at missed
      omega)
    omega
  · generalize isLoss : e ^ 3 - 4 * a * b * p = loss at *
    have fallen : e * residual a b amp e ≤
        -(e * (4 * a * b * (2 * amp - 1) + ((e - 1) ^ 2 + (e - 1) * e + e ^ 2))) := by
      rw [← mul_neg]
      exact mul_le_mul_of_nonneg_left (by linarith) (by omega)
    linarith
  · have two : 2 ≤ d - 1 - 1 := by
      by_contra low
      have before := residual_one_pos aPos bPos ampPos
      have := residual_anti aPos bPos ampPos (s := d - 1 - 1) (t := 1) (by omega) (by omega)
      omega
    generalize isLoss : d ^ 3 - 4 * a * b * p = loss at *
    have fallen : d * residual a b amp d ≤
        -(d * (2 * (4 * a * b * (2 * amp - 1) + ((d - 1 - 1) ^ 2 + (d - 1 - 1) * d + d ^ 2)))) := by
      rw [← mul_neg]
      exact mul_le_mul_of_nonneg_left (by linarith) (by omega)
    have lossSmall : loss ≤ d ^ 2 - d := by linarith
    have scaled := mul_le_mul_of_nonneg_left lossSmall (show 0 ≤ d - 3 by omega)
    have lever : 0 ≤ 4 * a * b * (2 * amp - 1) * d := by
      have : 0 ≤ 2 * amp - 1 := by omega
      positivity
    have cubic : d * (2 * (d * (d - 4)) + 5) ≤ 0 := by linarith
    have : 0 < d * (2 * (d * (d - 4)) + 5) := by
      have : 0 ≤ d - 4 := by omega
      positivity
    omega

end NewtonStep

theorem Swings.not_tame {v : Int} (swings : Swings a b amp v) (approach : Approach a b amp v)
    (aPos : 1 ≤ a) (bPos : 1 ≤ b) : ¬ Tame a b amp v := by
  intro tame
  have := swings.up.climb_of_tame tame aPos bPos approach.pos approach.after
  omega

theorem Tame.mild {d : Int} (tame : Tame a b amp d) (aPos : 1 ≤ a) (bPos : 1 ≤ b) (dPos : 1 ≤ d) :
    Mild a b amp d := by
  have lossNonneg : 0 ≤ 4 * a * b - 2 * a + (2 * a - 1) * d := by nlinarith
  have lossDistance := mul_nonneg (show 0 ≤ d by omega) lossNonneg
  have square : 0 < d ^ 2 := by positivity
  unfold Tame at tame
  constructor
  · linarith
  · linarith

/-- If all values that the iteration may pass are tame, it settles within one unit of the exact
invariant. -/
theorem settlesWithinOne_of_tame (range : InRange a b amp)
    (tame : ∀ d, Approach a b amp d → Tame a b amp d) : SettlesWithinOne a b amp := by
  obtain ⟨aPos, bPos, ampPos, -⟩ := id range
  obtain ⟨z, y, approach, newton, next, above, below, calculated⟩ := exists_settled range
    (fun d approach => (tame d approach).mild aPos bPos approach.pos)
    (fun v _ approach swings => swings.not_tame approach aPos bPos (tame v approach))
  refine ⟨y, calculated, ?_, next.after⟩
  exact newton.accurate (tame _ approach) aPos bPos ampPos approach.pos next.pos (by omega) (by omega)

end PegPool.Curve
