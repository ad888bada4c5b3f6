import PegPool.Proofs.Curve.Domain
import PegPool.Proofs.Curve.SkewLimit

/-!
# How far the iteration ends above the exact invariant

The value `d` at which the iteration ends may lie above the exact invariant, but never so far that
one more unit of the second reserve would not make up for it: the residual of `a` and `b + 1` is not
negative at `d` (`InRange.residual_succ_nonneg`).

Where the iteration settles, its last step moved the value by at most one, and that step alone shows
it (`Settles.residual_ge`).  In more skewed pools the cap may end it on a swing.
There, with `3 n² ≤ a`, no step goes up by more than `n`, and the cap leaves enough steps to come
down to `2n` above the integer part (`Confined`), so that the last step is short as well.
-/

namespace PegPool.Curve

variable {a b amp d e p n : Int}

/-! ## One unit more of the second reserve -/

theorem residual_succ_sub (a b amp t : Int) : residual a (b + 1) amp t - residual a b amp t =
    4 * a * (2 * amp * (a + 2 * b + 1 - t) + t) := by
  unfold residual
  ring

theorem four_mul_le_residual_succ_sub (aPos : 1 ≤ a) (bPos : 1 ≤ b) (ampPos : 1 ≤ amp) {t : Int}
    (atMost : t ≤ a + b) :
    4 * a * (2 * a + 4 * b + 2 - t) ≤ residual a (b + 1) amp t - residual a b amp t := by
  rw [residual_succ_sub]
  apply mul_le_mul_of_nonneg_left _ (by omega)
  have := mul_le_mul_of_nonneg_right (show 2 ≤ 2 * amp by omega) (show 0 ≤ a + 2 * b + 1 - t by omega)
  linarith

/-! ## Where a step ends -/

theorem Approach.two_le (approach : Approach a b amp d) (aPos : 1 ≤ a) (bPos : 1 ≤ b)
    (ampPos : 1 ≤ amp) : 2 ≤ d :=
  approach.two_mul_le aPos bPos ampPos (m := 1) (by norm_num) aPos bPos

namespace NewtonStep

/-- A step ends above the exact invariant by the curvature of the cubic and by what is lost. -/
theorem residual_ge (newton : NewtonStep a b amp d p e) (aPos : 1 ≤ a) (bPos : 1 ≤ b) :
    -(d * ((e - d) ^ 2 * (e + 2 * d)) + (3 * e - 2 * d) * (d ^ 3 - 4 * a * b * p)) ≤
      d * residual a b amp e := by
  have scaled := mul_le_mul_of_nonneg_left newton.le (show 0 ≤ 4 * a * b by positivity)
  unfold residual
  linarith

/-- A step that moves its value by at most one ends above the exact invariant by little more than what
the divisions lose. -/
theorem residual_ge_of_close (newton : NewtonStep a b amp d p e) (approach : Approach a b amp d)
    (aPos : 1 ≤ a) (bPos : 1 ≤ b) (ampPos : 1 ≤ amp) (below : d ≤ e + 1) (above : e ≤ d + 1) :
    -(4 * a * b + 2 * a + (2 * a + 5) * e) ≤ residual a b amp e := by
  have step := newton.residual_ge aPos bPos
  have lossLe := newton.lossLe
  have mean := approach.four_mul_le aPos bPos ampPos
  have two := approach.two_le aPos bPos ampPos
  have two' := (newton.approach aPos bPos ampPos approach).two_le aPos bPos ampPos
  generalize d ^ 3 - 4 * a * b * p = loss at *
  suffices scaled : 0 ≤ d * (residual a b amp e + (4 * a * b + 2 * a + (2 * a + 5) * e)) by
    have := nonneg_of_mul_nonneg_right scaled (by omega)
    omega
  have product : 0 ≤ a * e := mul_nonneg (by omega) (by omega)
  have reserves : 0 ≤ a * b := mul_nonneg (by omega) (by omega)
  obtain rfl | rfl | rfl : e = d + 1 ∨ e = d ∨ d = e + 1 := by omega
  · -- what is lost counts more here than at the other two, and the mean of the reserves bounds it
    have := mul_le_mul_of_nonneg_left lossLe (show 0 ≤ d + 3 by omega)
    linarith
  · have := mul_le_mul_of_nonneg_left lossLe (show 0 ≤ e by omega)
    linarith [sq_nonneg e]
  · have := mul_le_mul_of_nonneg_left lossLe (show 0 ≤ e - 2 by omega)
    linarith [mul_le_mul_of_nonneg_left two' (show 0 ≤ e by omega)]

theorem residual_ge_of_fall (newton : NewtonStep a b amp d p e) (aPos : 1 ≤ a) (bPos : 1 ≤ b)
    (dPos : 1 ≤ d) (below : e ≤ d) (near : 3 * (d - e) ^ 2 ≤ 4 * a) (half : 2 * (d - e) ≤ e) :
    -(12 * a * b + 6 * a * e) ≤ residual a b amp e := by
  have step := newton.residual_ge aPos bPos
  have lossLe := newton.lossLe
  obtain ⟨j, rfl⟩ : ∃ j, d = e + j := ⟨d - e, by ring⟩
  rw [add_sub_cancel_left] at near half
  have loss : (e - 2 * j) * ((e + j) ^ 3 - 4 * a * b * p) ≤
      (e - 2 * j) * (4 * a * b + 2 * a * (e + j)) :=
    mul_le_mul_of_nonneg_left (by linarith) (by omega)
  have curvature := mul_le_mul_of_nonneg_right near (show 0 ≤ (e + j) * (3 * e + 2 * j) from
    mul_nonneg (by omega) (by omega))
  have gap : 0 ≤ (e + j) * (a * j) := mul_nonneg (by omega) (mul_nonneg (by omega) (by omega))
  have product : 0 ≤ (a * b) * j := mul_nonneg (by positivity) (by omega)
  have product' : 0 ≤ (a * b) * (e + j) := mul_nonneg (by positivity) (by omega)
  have scaled : 0 ≤ (e + j) * (residual a b amp e + (12 * a * b + 6 * a * e)) := by linarith
  have := nonneg_of_mul_nonneg_right scaled (by omega)
  omega

theorem residual_ge_of_climb (newton : NewtonStep a b amp d p e) (aPos : 1 ≤ a) (bPos : 1 ≤ b)
    (dPos : 1 ≤ d) (above : d ≤ e) (near : 3 * (e - d) ^ 2 ≤ a) (half : 2 * (e - d) ≤ d) :
    -(12 * a * b + 6 * a * e) ≤ residual a b amp e := by
  have step := newton.residual_ge aPos bPos
  have lossLe := newton.lossLe
  obtain ⟨j, rfl⟩ : ∃ j, e = d + j := ⟨e - d, by ring⟩
  rw [add_sub_cancel_left] at near half step
  have loss : (d + 3 * j) * (d ^ 3 - 4 * a * b * p) ≤ (d + 3 * j) * (4 * a * b + 2 * a * d) :=
    mul_le_mul_of_nonneg_left (by linarith) (by omega)
  have curvature := mul_le_mul_of_nonneg_right near (show 0 ≤ d * (3 * d + j) from
    mul_nonneg (by omega) (by omega))
  have gap : 0 ≤ a * d * (d - 2 * j) := mul_nonneg (mul_nonneg (by omega) (by omega)) (by omega)
  have product : 0 ≤ a * b * (d - 2 * j) := mul_nonneg (by positivity) (by omega)
  have product' : 0 ≤ a * b * j := mul_nonneg (by positivity) (by omega)
  have square : 0 ≤ a * d ^ 2 := by positivity
  have scaled : 0 ≤ d * (residual a b amp (d + j) + (12 * a * b + 6 * a * (d + j))) := by linarith
  have := nonneg_of_mul_nonneg_right scaled (by omega)
  omega

theorem residual_ge_of_short (newton : NewtonStep a b amp d p e) (aPos : 1 ≤ a) (bPos : 1 ≤ b)
    (dPos : 1 ≤ d) (root : 3 * n ^ 2 ≤ a) (large : 5 * n ≤ e) (fallen : d ≤ e + 2 * n)
    (climbed : e ≤ d + n) :
    -(12 * a * b + 6 * a * e) ≤ residual a b amp e := by
  rcases le_total e d with below | above
  · apply newton.residual_ge_of_fall aPos bPos dPos below _ (by omega)
    linarith [pow_le_pow_left₀ (show 0 ≤ d - e by omega) (show d - e ≤ 2 * n by omega) 2]
  · apply newton.residual_ge_of_climb aPos bPos dPos above _ (by omega)
    linarith [pow_le_pow_left₀ (show 0 ≤ e - d by omega) (show e - d ≤ n by omega) 2]

end NewtonStep

/-! ## Values of the iteration in pools of more than 32 to 1 -/

/-- They are at least three times the square root of the first reserve. -/
theorem Approach.nine_mul_le_sq (approach : Approach a b amp d) (bPos : 1 ≤ b) (ampPos : 1 ≤ amp)
    (steep : 32 * b < a) : 9 * a ≤ d ^ 2 := by
  have dPos := approach.pos
  by_contra small
  have few : 44 * d ≤ 23 * a := by nlinarith
  have cubic := approach.cubic_lt_of_le (by omega) bPos ampPos (n := 1) (m := d + 1) (by norm_num)
    (by omega)
  -- the coefficient one is the hardest case
  have lever : 4 * a * b * (2 * (a + b) - (d + 1)) ≤
      4 * a * b * (2 * amp * (a + b) - (2 * amp - 1) * (d + 1)) := by
    have := mul_nonneg (show 0 ≤ 2 * amp - 2 by omega) (show 0 ≤ a + b - (d + 1) by omega)
    exact mul_le_mul_of_nonneg_left (by linarith) (mul_nonneg (by omega) (by omega))
  have cube : (d + 1) * (d + 1) ^ 2 ≤ (d + 1) * (9 * a + 2 * d) :=
    mul_le_mul_of_nonneg_left (by linarith) (by omega)
  have single : 1 * ((d + 1) * (9 * a + 2 * d)) ≤ b * ((d + 1) * (9 * a + 2 * d)) :=
    mul_le_mul_of_nonneg_right bPos (mul_nonneg (by omega) (by omega))
  have more : b * (a * 1) ≤ b * (a * b) :=
    mul_le_mul_of_nonneg_left (mul_le_mul_of_nonneg_left bPos (by omega)) (by omega)
  have divided : 8 * a * (a + 1) < (d + 1) * (13 * a + 2 * d) :=
    lt_of_mul_lt_mul_left (a := b) (by linarith) (by omega)
  have := mul_le_mul (show 44 * (d + 1) ≤ 23 * a + 44 by omega)
    (show 44 * (13 * a + 2 * d) ≤ 618 * a by omega) (by omega) (by omega)
  nlinarith

theorem Approach.twelve_mul_le_sq (approach : Approach a b amp d) (bPos : 1 ≤ b) (two : 2 ≤ amp)
    (steep : 32 * b < a) : 12 * a * b ≤ d ^ 2 := by
  have dPos := approach.pos
  by_contra small
  have skewed := mul_le_mul_of_nonneg_left (show 32 * b ≤ a by omega) (show 0 ≤ a by omega)
  have few : 50 * d ≤ 31 * a := by nlinarith
  have cubic := approach.cubic_lt_of_le (by omega) bPos (by omega) (n := 1) (m := d + 1) (by norm_num)
    (by omega)
  have lever : 4 * a * b * (4 * (a + b) - 3 * (d + 1)) ≤
      4 * a * b * (2 * amp * (a + b) - (2 * amp - 1) * (d + 1)) := by
    have := mul_nonneg (show 0 ≤ 2 * amp - 4 by omega) (show 0 ≤ a + b - (d + 1) by omega)
    exact mul_le_mul_of_nonneg_left (by linarith) (mul_nonneg (by omega) (by omega))
  have cube : (d + 1) * (d + 1) ^ 2 ≤ (d + 1) * (12 * a * b + 2 * d) :=
    mul_le_mul_of_nonneg_left (by linarith) (by omega)
  have single : 1 * ((d + 1) * (2 * d)) ≤ b * ((d + 1) * (2 * d)) :=
    mul_le_mul_of_nonneg_right bPos (mul_nonneg (by omega) (by omega))
  have more : b * (a * 1) ≤ b * (a * b) :=
    mul_le_mul_of_nonneg_left (mul_le_mul_of_nonneg_left bPos (by omega)) (by omega)
  have divided : 16 * a * (a + 1) < (d + 1) * (24 * a + 2 * d) :=
    lt_of_mul_lt_mul_left (a := b) (by linarith) (by omega)
  have := mul_le_mul (show 50 * (d + 1) ≤ 31 * a + 50 by omega)
    (show 50 * (24 * a + 2 * d) ≤ 1262 * a by omega) (by omega) (by omega)
  nlinarith

/-- Where the last step is short, one unit more of the second reserve makes up for it. -/
theorem residual_succ_nonneg_of_one (bPos : 1 ≤ b) (steep : 32 * b < a) (atMost : d ≤ a + b)
    (near : -(12 * a * b + 6 * a * d) ≤ residual a b 1 d) : 0 ≤ residual a (b + 1) 1 d := by
  have grown := residual_succ_sub a b 1 d
  have enough : 5 * d ≤ 4 * a + 2 * b + 4 := by
    by_contra large
    have line : 4 * a ≤ 5 * d := by omega
    have cube := mul_le_mul_of_nonneg_right (mul_self_le_mul_self (by omega) line)
      (show 0 ≤ d by omega)
    have skewed := mul_le_mul_of_nonneg_left (show 32 * b ≤ a by omega) (show 0 ≤ a by omega)
    have pull := mul_le_mul skewed (show 64 * (2 * (a + b) - d) ≤ 101 * d by omega) (by omega)
      (mul_self_nonneg a)
    have long := mul_le_mul_of_nonneg_left (show 27 ≤ d by omega) (mul_self_nonneg a)
    have wide := mul_le_mul_of_nonneg_right (show 33 ≤ a by omega) (show 0 ≤ a * d by nlinarith)
    have : 0 < a * a * d := by
      have : 0 < a := by omega
      have : 0 < d := by omega
      positivity
    unfold residual at near
    linarith
  have := mul_le_mul_of_nonneg_left enough (show 0 ≤ a by omega)
  linarith

theorem residual_succ_nonneg_of_sq (aPos : 1 ≤ a) (bPos : 1 ≤ b) (two : 2 ≤ amp) (dPos : 1 ≤ d)
    (square : 12 * a * b ≤ d ^ 2) (near : -(12 * a * b + 6 * a * d) ≤ residual a b amp d) :
    0 ≤ residual a (b + 1) amp d := by
  have grown := residual_succ_sub a b amp d
  -- were it negative, the value would be so large that its cube contradicts `near`
  by_contra negative
  have lever := mul_le_mul_of_nonneg_right (show 4 ≤ 2 * amp by omega) (show 0 ≤ b + 1 by omega)
  have low : 2 * a * (2 * (2 * amp * (a + 2 * b + 1 - d) + d)) < 2 * a * (6 * b + 3 * d) := by linarith
  have low' := lt_of_mul_lt_mul_left low (by omega)
  have pulled := mul_lt_mul_of_pos_left
    (show 2 * (2 * amp * (a + b - d) + d) < 3 * d - 2 * b - 8 by linarith)
    (show 0 < 2 * a * b by positivity)
  have cube := mul_le_mul_of_nonneg_left square (show 0 ≤ d by omega)
  have single := mul_le_mul_of_nonneg_left bPos (show 0 ≤ 6 * a * d by positivity)
  have : 0 < a * b := by positivity
  have : 0 < a * b * b := by positivity
  unfold residual at near
  linarith

/-! ## Confined values -/

/-- At `d` a step goes up by at most `n`, and one that ends more than `2n` above the integer part of the
exact invariant comes down from further above. -/
structure Confined (a b amp n d : Int) : Prop where
  fall : (3 * d + 3 * (2 * n)) * (4 * a * b - 2 * a + (2 * a - 1) * d) <
    2 * n * (4 * a * b * (2 * amp - 1) * d + 3 * d ^ 3)
  climb : (d + 3 * n + 3) * (4 * a * b - 2 * a + (2 * a - 1) * d) + 3 * d ^ 2 + d ≤
    n * (4 * a * b * (2 * amp - 1) * d + 3 * d ^ 3)

namespace NewtonStep

theorem fall_of_confined (newton : NewtonStep a b amp d p e) (confined : Confined a b amp n d)
    (aPos : 1 ≤ a) (bPos : 1 ≤ b) (ampPos : 1 ≤ amp) (dPos : 1 ≤ d) (nPos : 0 < n) {u : Int}
    (uNonneg : 0 ≤ u) (le : u ≤ d) (passed : residual a b amp u ≤ 0) :
    3 * (e - d) + (d - u) < 2 * n := by
  apply newton.fall_lt aPos bPos ampPos dPos uNonneg le passed (by omega)
  have := mul_le_mul_of_nonneg_left newton.lossLe (show 0 ≤ 3 * d + 3 * (2 * n) by omega)
  linarith [confined.fall]

theorem climb_of_confined (newton : NewtonStep a b amp d p e) (confined : Confined a b amp n d)
    (aPos : 1 ≤ a) (bPos : 1 ≤ b) (dPos : 1 ≤ d) (nPos : 0 < n)
    (after : residual a b amp (d + 1) < 0) : e ≤ d + n := by
  apply newton.climb_le aPos bPos dPos after nPos
  have := mul_le_mul_of_nonneg_left newton.lossLe (show 0 ≤ d + 3 * n + 3 by omega)
  linarith [confined.climb]

end NewtonStep

theorem exists_integerRoot_third (aPos : 27 ≤ a) :
    ∃ n : Int, 3 ≤ n ∧ 3 * n ^ 2 ≤ a ∧ a < 3 * (n + 1) ^ 2 := by
  obtain ⟨m, rfl⟩ := Int.eq_ofNat_of_zero_le (show 0 ≤ a by omega)
  have three : 3 ≤ Nat.sqrt (m / 3) := Nat.le_sqrt.mpr (by omega)
  have le := Nat.sqrt_le (m / 3)
  have lt := Nat.lt_succ_sqrt (m / 3)
  rw [Nat.succ_eq_add_one] at lt
  refine ⟨Nat.sqrt (m / 3), by omega, ?_, ?_⟩
  · zify at le
    linarith [Int.mul_ediv_self_le (x := m) (k := 3) (by norm_num)]
  · have next : m < 3 * ((Nat.sqrt (m / 3) + 1) * (Nat.sqrt (m / 3) + 1)) := by omega
    zify at next
    linarith

theorem nine_mul_le_seven_mul (three : 3 ≤ n) (less : a < 3 * (n + 1) ^ 2) (dPos : 1 ≤ d)
    (square : 9 * a ≤ d ^ 2) : 9 * a ≤ 7 * (n * d) := by
  by_contra small
  have aPos : 0 ≤ a := by
    have : 0 ≤ n * d := mul_nonneg (by omega) (by omega)
    omega
  have wide : 9 * (n + 1) ^ 2 ≤ 16 * n ^ 2 := by nlinarith
  have product : 49 * (n ^ 2 * d ^ 2) ≤ 81 * a ^ 2 := by
    have := mul_self_le_mul_self (mul_nonneg (by norm_num) (mul_nonneg (by omega) (by omega)))
      (show 7 * (n * d) ≤ 9 * a by omega)
    linarith
  have scaled := mul_le_mul_of_nonneg_left square (sq_nonneg n)
  have : a * (441 * n ^ 2) ≤ a * (81 * a) := by linarith
  nlinarith

theorem confined_of_sq (aPos : 1 ≤ a) (bPos : 1 ≤ b) (ampPos : 1 ≤ amp) (three : 3 ≤ n)
    (six : 6 ≤ d) (atMost : d ≤ 8 * a) (square : 9 * a ≤ d ^ 2) (product : 9 * a ≤ 7 * (n * d)) :
    Confined a b amp n d := by
  have lever : 4 * a * b * d * 1 ≤ 4 * a * b * d * (2 * amp - 1) := by
    apply mul_le_mul_of_nonneg_left (by omega)
    have : 0 ≤ d := by omega
    positivity
  have pull := mul_le_mul_of_nonneg_left lever (show 0 ≤ n by omega)
  have cube := mul_le_mul_of_nonneg_left product (show 0 ≤ d ^ 2 by positivity)
  have cube' := mul_le_mul_of_nonneg_left square (show 0 ≤ n * d from mul_nonneg (by omega) (by omega))
  have room : 0 ≤ a * b * ((d - 6) * (n - 3)) :=
    mul_nonneg (by positivity) (mul_nonneg (by omega) (by omega))
  have steps : 0 ≤ a * b * (d - 6) := mul_nonneg (by positivity) (by omega)
  have roots : 0 ≤ a * b * (n - 3) := mul_nonneg (by positivity) (by omega)
  have narrow : 0 ≤ d * (8 * a - d) := mul_nonneg (by omega) (by omega)
  have wide : 0 ≤ a * d * (n - 3) := mul_nonneg (mul_nonneg (by omega) (by omega)) (by omega)
  have : 0 ≤ a * n := mul_nonneg (by omega) (by omega)
  have : 0 ≤ n * d := mul_nonneg (by omega) (by omega)
  have : 0 < d ^ 2 := pow_pos (by omega) 2
  constructor
  · linarith
  · linarith

/-- In a pool of more than 32 to 1 all values are confined, for `n` the square root of a third of the first
reserve. -/
theorem Approach.confined (approach : Approach a b amp d) (aPos : 1 ≤ a) (bPos : 1 ≤ b)
    (ampPos : 1 ≤ amp) (steep : 32 * b < a) (three : 3 ≤ n) (nLe : 3 * n ^ 2 ≤ a)
    (nLt : a < 3 * (n + 1) ^ 2) : Confined a b amp n d ∧ 5 * n ≤ d := by
  have dPos := approach.pos
  have small := le_two_mul_sum ampPos (by omega) approach.bounded
  have square := approach.nine_mul_le_sq bPos ampPos steep
  have large : 5 * n ≤ d := le_of_sq_le_sq (by linarith) (by omega)
  exact ⟨confined_of_sq aPos bPos ampPos three (by omega) (by omega) square
    (nine_mul_le_seven_mul three nLt dPos square), large⟩

/-! ## The iteration in pools of more than 32 to 1 -/

/-- What a step leaves of the distance to the values near the exact invariant. -/
def thin (r : Int) : Int :=
  2 * r / 3

theorem iterate_thin_nonneg (m : Nat) : 0 ≤ thin^[m] (2 ^ 65) := by
  induction m with
  | zero => decide
  | succ m inductionHypothesis =>
    rw [Function.iterate_succ_apply']
    unfold thin at *
    omega

/-- Of a distance of 65 bits nothing is left one step before the cap. -/
theorem iterate_thin_defaultCap : thin^[255] (2 ^ 65) = 0 := by decide +kernel

/-- A step from a confined value leaves a third less of the distance to `2n` above the integer part `v`. -/
theorem NewtonStep.sub_le_thin (newton : NewtonStep a b amp d p e) (confined : Confined a b amp n d)
    (approach : Approach a b amp d) (aPos : 1 ≤ a) (bPos : 1 ≤ b) (ampPos : 1 ≤ amp) (nPos : 0 < n)
    {v r : Int} (vNonneg : 0 ≤ v) (passed : residual a b amp (v + 1) < 0) (rNonneg : 0 ≤ r)
    (near : d - (v + 2 * n) ≤ r) : e - (v + 2 * n) ≤ thin r := by
  unfold thin
  by_cases above : v + 1 ≤ d
  · have := newton.fall_of_confined confined aPos bPos ampPos approach.pos nPos (by omega) above passed.le
    omega
  · have := newton.climb_of_confined confined aPos bPos approach.pos nPos approach.after
    omega

theorem exists_short_end (range : InRange a b amp) (steep : 32 * b < a) :
    ∃ y : Nat, (invariant defaultCap a b amp).outcome = .ok y ∧
      -(12 * a * b + 6 * a * y) ≤ residual a b amp y := by
  obtain ⟨aPos, bPos, ampPos, sumFits, -⟩ := id range
  obtain ⟨sum, twoA, twoB, words⟩ := range.exists_reserveWords
  obtain ⟨v, vNonneg, before, passed⟩ := exists_integerPart aPos bPos ampPos
  obtain ⟨n, three, nLe, nLt⟩ := exists_integerRoot_third (a := a) (by omega)
  have confined : ∀ {d}, Approach a b amp d → Confined a b amp n d ∧ 5 * n ≤ d := fun approach =>
    approach.confined aPos bPos ampPos steep three nLe nLt
  have least : ∀ {d}, Approach a b amp d → v ≤ d := fun approach =>
    approach.le_of_residual aPos bPos ampPos before
  -- each step takes its part of the distance to `2n` above the integer part
  have total : ∀ m (z : Word), (Approach a b amp z.val ∧ z.val - (v + 2 * n) ≤ thin^[m] (2 ^ 65)) →
      ∃ y, invariantStep amp sum twoA twoB z = .ok y ∧
        (Approach a b amp y.val ∧ y.val - (v + 2 * n) ≤ thin^[m + 1] (2 ^ 65)) := by
    rintro m z ⟨approach, near⟩
    obtain ⟨y, stepped, newton, next⟩ := exists_newtonStep range words approach
    rw [Function.iterate_succ_apply']
    exact ⟨y, stepped, next, newton.sub_le_thin (confined approach).1 approach aPos bPos ampPos (by omega)
      vNonneg passed (iterate_thin_nonneg m) near⟩
  have start : Approach a b amp sum.val ∧ sum.val - (v + 2 * n) ≤ thin^[0] (2 ^ 65) := by
    refine ⟨words.approach_sum range, ?_⟩
    rw [words.isSum, Function.iterate_zero_apply]
    omega
  obtain ⟨m, z, y, ⟨approach, near⟩, stepped, ended, settled⟩ := settle_ends total 255 start
  obtain ⟨y', stepped', newton, next⟩ := exists_newtonStep range words approach
  cases stepped.symm.trans stepped'
  have climbed := newton.climb_of_confined (confined approach).1 aPos bPos approach.pos (by omega)
    approach.after
  -- the last step was short, or it started where nothing was left of that distance
  have fallen : (z.val : Int) ≤ y.val + 2 * n := by
    rcases ended with isClose | rfl
    · have := close_iff.mp isClose
      omega
    · rw [zero_add, iterate_thin_defaultCap] at near
      have := least next
      omega
  exact ⟨y.val, words.invariant_of_settle range settled,
    newton.residual_ge_of_short aPos bPos approach.pos nLe (confined next).2 fallen climbed⟩

/-! ## All pools -/

theorem Settles.residual_ge (settles : Settles a b amp) (range : InRange a b amp) {d : Nat}
    (calculated : (invariant defaultCap a b amp).outcome = .ok d) :
    -(4 * a * b + 2 * a + (2 * a + 5) * d) ≤ residual a b amp d := by
  obtain ⟨aPos, bPos, ampPos, -⟩ := id range
  obtain ⟨sum, twoA, twoB, words⟩ := range.exists_reserveWords
  have total : ∀ (_ : Nat) (z : Word), Approach a b amp z.val →
      ∃ y, invariantStep amp sum twoA twoB z = .ok y ∧ Approach a b amp y.val := by
    intro _ z approach
    obtain ⟨y, stepped, -, next⟩ := exists_newtonStep range words approach
    exact ⟨y, stepped, next⟩
  obtain ⟨-, z, y, approach, stepped, -, settled⟩ :=
    settle_ends total 255 (n := 0) (words.approach_sum range)
  obtain ⟨y', stepped', newton, -⟩ := exists_newtonStep range words approach
  cases stepped.symm.trans stepped'
  have isClose : close y z = true := by
    obtain ⟨d', silent⟩ := settles
    have events := congrArg Traced.events ((words.invariant_eq range settled).symm.trans silent)
    by_contra unsettled
    simp [unsettled, Traced.ok] at events
  cases calculated.symm.trans (words.invariant_of_settle range settled)
  have near := close_iff.mp isClose
  exact newton.residual_ge_of_close approach aPos bPos ampPos (by omega) (by omega)

theorem Settles.residual_succ_nonneg (settles : Settles a b amp) (range : InRange a b amp) {d : Nat}
    (calculated : (invariant defaultCap a b amp).outcome = .ok d) (leSum : d ≤ a + b) :
    0 ≤ residual a (b + 1) amp d := by
  obtain ⟨aPos, bPos, ampPos, -⟩ := id range
  have near := settles.residual_ge range calculated
  have grown := four_mul_le_residual_succ_sub aPos bPos ampPos leSum
  have room := mul_le_mul_of_nonneg_left leSum (show 0 ≤ 6 * a + 5 by omega)
  have single := mul_le_mul_of_nonneg_right aPos (show 0 ≤ b by omega)
  linarith [sq_nonneg a]

/-- The value at which the iteration ends is one that a pool with one unit more of the second asset has
not passed. -/
theorem InRange.residual_succ_nonneg (range : InRange a b amp) {d : Nat}
    (calculated : (invariant defaultCap a b amp).outcome = .ok d) :
    0 ≤ residual a (b + 1) amp d := by
  obtain ⟨aPos, bPos, ampPos, -⟩ := id range
  obtain ⟨d', calculated', approach, leSum⟩ := range.exists_invariant_le_sum defaultCap
  cases calculated.symm.trans calculated'
  by_cases steep : 32 * b < a
  · obtain ⟨y, calculated', near⟩ := exists_short_end range steep
    cases calculated.symm.trans calculated'
    by_cases two : 2 ≤ amp
    · exact residual_succ_nonneg_of_sq aPos bPos two approach.pos
        (approach.twelve_mul_le_sq bPos two steep) near
    · obtain rfl : amp = 1 := by omega
      exact residual_succ_nonneg_of_one bPos steep leSum near
  · by_cases two : 2 ≤ amp
    · have skewed : 32 * b ≤ 16 * amp * b := mul_le_mul_of_nonneg_right (by omega) (by omega)
      exact (settles_of_two_le range two (by omega)).residual_succ_nonneg range calculated leSum
    · obtain rfl : amp = 1 := by omega
      exact (settles_of_one range (by omega)).residual_succ_nonneg range calculated leSum

end PegPool.Curve
