import Mathlib.Tactic.Linarith
import Mathlib.Tactic.Ring

/-!
# The root of the reserve equation

The reserve equation is `t² + m t = c`, where `m` may be negative (`quadratic`).  Seen from a value
above its root, a Newton step at least halves the distance to the integer part of the root
(`RootStep.two_mul_le`), and from there it goes up by one at most (`RootStep.le_succ`).  A step that
moves its value by at most one ends at that integer part or at the number after it, and at the latter
only if the equation is missed by one there (`RootStep.quadratic_le_one`).
-/

namespace PegPool.Curve

def quadratic (m c t : Int) : Int :=
  t * t + m * t - c

variable {m c s t y z r : Int}

theorem lt_of_quadratic (cNonneg : 0 ≤ c) (tNonneg : 0 ≤ t) (before : quadratic m c s ≤ 0)
    (after : 0 < quadratic m c t) : s < t := by
  unfold quadratic at before after
  by_contra above
  have factor : 0 < t + m := by
    have : 0 < t * (t + m) := by linarith
    exact pos_of_mul_pos_right this tNonneg
  have : t * (t + m) ≤ s * (s + m) := mul_le_mul (by omega) (by omega) (by omega) (by omega)
  linarith

/-- The integer part of the root that is not negative. -/
structure IntegerRoot (m c r : Int) : Prop where
  nonneg : 0 ≤ r
  before : quadratic m c r ≤ 0
  after : 0 < quadratic m c (r + 1)

theorem exists_integerRoot (m : Int) (cNonneg : 0 ≤ c) : ∃ r, IntegerRoot m c r := by
  have passed : ∃ n : Nat, 0 < quadratic m c (n + 1) := by
    refine ⟨m.natAbs + c.toNat, ?_⟩
    have factor : c + 1 ≤ ((m.natAbs + c.toNat : Nat) : Int) + 1 + m := by omega
    have product := mul_le_mul (show 1 ≤ ((m.natAbs + c.toNat : Nat) : Int) + 1 by omega) factor
      (by omega) (by omega)
    unfold quadratic
    linarith
  refine ⟨Nat.find passed, by omega, ?_, Nat.find_spec passed⟩
  cases isLeast : Nat.find passed with
  | zero =>
    unfold quadratic
    push_cast
    omega
  | succ n =>
    have before := Nat.find_min passed (m := n) (by omega)
    push_cast
    omega

/-! ## One step -/

/-- One step from `y` to `z`. -/
structure RootStep (m c y z : Int) : Prop where
  denominatorPos : 0 < 2 * y + m
  le : z * (2 * y + m) ≤ y * y + c
  lt : y * y + c < (z + 1) * (2 * y + m)

namespace RootStep

theorem nonneg (step : RootStep m c y z) (cNonneg : 0 ≤ c) : 0 ≤ z := by
  have : 0 < (z + 1) * (2 * y + m) := by
    have := mul_self_nonneg y
    linarith [step.lt]
  have := pos_of_mul_pos_left this step.denominatorPos.le
  omega

theorem after (step : RootStep m c y z) : 0 < quadratic m c (z + 1) := by
  have tangent := mul_self_nonneg (z + 1 - y)
  unfold quadratic
  linarith [step.lt]

/-- From above the root a step closes at least half of the distance. -/
theorem two_mul_le (step : RootStep m c y z) (cNonneg : 0 ≤ c) (root : IntegerRoot m c r)
    (above : r + 1 ≤ y) : 2 * z ≤ y + r := by
  obtain ⟨rNonneg, -, after⟩ := root
  unfold quadratic at after
  have factor : 0 < r + 1 + m := by
    have : 0 < (r + 1) * (r + 1 + m) := by linarith
    exact pos_of_mul_pos_right this (by omega)
  by_contra far
  have numerator : (y + r + 1) * (2 * y + m) ≤ 2 * z * (2 * y + m) :=
    mul_le_mul_of_nonneg_right (by omega) step.denominatorPos.le
  have gap : 0 ≤ (y - (r + 1)) * (m + 2 * (r + 1)) := mul_nonneg (by omega) (by omega)
  linarith [step.le]

/-- From the integer part of the root a step goes up by one at most. -/
theorem le_succ (step : RootStep m c r z) (root : IntegerRoot m c r) : z ≤ r + 1 := by
  have after := root.after
  unfold quadratic at after
  by_contra far
  have : (r + 2) * (2 * r + m) ≤ z * (2 * r + m) :=
    mul_le_mul_of_nonneg_right (by omega) step.denominatorPos.le
  linarith [step.le, step.denominatorPos]

/-- Where a step moves its value by at most one, it misses the equation by at most one from above. -/
theorem quadratic_le_one (step : RootStep m c y z) (below : y ≤ z + 1) (above : z ≤ y + 1) :
    quadratic m c z ≤ 1 := by
  have le := step.le
  have positive := step.denominatorPos
  unfold quadratic
  obtain rfl | rfl | rfl : z = y + 1 ∨ z = y ∨ z = y - 1 := by omega
  · linarith
  · linarith
  · linarith

end RootStep

/-- A value that has reached the root has a next one, unless it is the root zero of `t² = 0`. -/
theorem denominator_pos (cNonneg : 0 ≤ c) (yNonneg : 0 ≤ y) (after : 0 < quadratic m c (y + 1))
    (proper : 1 ≤ y ∨ m ≠ 0 ∨ c ≠ 0) : 0 < 2 * y + m := by
  unfold quadratic at after
  have factor : 0 < y + 1 + m := by
    have : 0 < (y + 1) * (y + 1 + m) := by linarith
    exact pos_of_mul_pos_right this (by omega)
  by_contra none
  obtain rfl : y = 0 := by omega
  obtain rfl : m = 0 := by omega
  omega

theorem quadratic_pred_nonpos (cNonneg : 0 ≤ c) (yPos : 1 ≤ y) (near : quadratic m c y ≤ 1) :
    quadratic m c (y - 1) ≤ 0 := by
  by_contra after
  unfold quadratic at near after
  have factor : 0 < y - 1 + m := by
    have : 0 < (y - 1) * (y - 1 + m) := by linarith
    exact pos_of_mul_pos_right this (by omega)
  linarith

end PegPool.Curve
