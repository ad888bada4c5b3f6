import PegPool.Proofs.Curve.Convergence

/-!
# How skewed a pool may be

The values of the iteration are tame in a pool whose first reserve is at most 19 times the second
one, with the exception of small pools.  The coefficient one is the hardest case: there the loss of
the divisions is kept small by the invariant alone, which must be more than two thirds of the first
reserve.
-/

namespace PegPool.Curve

variable {a b amp d : Int}

/-! ## Values of the iteration are large -/

/-- A total of at most the reserves and of at most twice their product in the mean is not passed. -/
theorem residual_nonneg_of_sq_le (aPos : 1 ≤ a) (bPos : 1 ≤ b) (ampPos : 1 ≤ amp) {t : Int}
    (nonneg : 0 ≤ t) (atMost : t ≤ a + b) (square : t ^ 2 ≤ 4 * a * b) : 0 ≤ residual a b amp t := by
  have lever : 0 ≤ 4 * a * b * (2 * amp * (a + b - t)) := by
    have : 0 ≤ a + b - t := by omega
    positivity
  have := mul_le_mul_of_nonneg_left square nonneg
  unfold residual
  linarith

theorem Approach.two_mul_le (approach : Approach a b amp d) (aPos : 1 ≤ a) (bPos : 1 ≤ b)
    (ampPos : 1 ≤ amp) {m : Int} (nonneg : 0 ≤ m) (leA : m ≤ a) (leB : m ≤ b) : 2 * m ≤ d := by
  apply approach.le_of_residual aPos bPos ampPos
  apply residual_nonneg_of_sq_le aPos bPos ampPos (by omega) (by omega)
  have := mul_le_mul leA leB nonneg (by omega)
  linarith

/-- The residual is negative at every fraction `m / n` from the next total on. -/
theorem Approach.cubic_lt_of_le (approach : Approach a b amp d) (aPos : 1 ≤ a) (bPos : 1 ≤ b)
    (ampPos : 1 ≤ amp) {n m : Int} (nPos : 0 < n) (le : n * (d + 1) ≤ m) :
    4 * a * b * n ^ 2 * (2 * amp * (n * (a + b)) - (2 * amp - 1) * m) < m ^ 3 := by
  have dPos := approach.pos
  have after := approach.after
  have cube : (n * (d + 1)) ^ 3 ≤ m ^ 3 :=
    pow_le_pow_left₀ (mul_nonneg nPos.le (by omega)) le 3
  have lever := mul_le_mul_of_nonneg_left le (show 0 ≤ 2 * amp - 1 by omega)
  have scaled := mul_le_mul_of_nonneg_left lever (show 0 ≤ 4 * a * b * n ^ 2 by positivity)
  have passed := mul_neg_of_pos_of_neg (show 0 < n ^ 3 by positivity) after
  unfold residual at passed
  linarith

theorem Approach.four_mul_le (approach : Approach a b amp d) (aPos : 1 ≤ a) (bPos : 1 ≤ b)
    (ampPos : 1 ≤ amp) : 4 * a * b ≤ d ^ 2 + 2 * d := by
  have dPos := approach.pos
  by_contra small
  have square : (d + 1) ^ 2 ≤ 4 * a * b := by linarith
  have atMost : d + 1 ≤ a + b := by
    apply le_of_sq_le_sq _ (by omega)
    nlinarith [sq_nonneg (a - b)]
  have before := residual_nonneg_of_sq_le aPos bPos ampPos (by omega) atMost square
  have := approach.after
  omega

/-! ## Tame values -/

/-- From a coefficient of five on all values are tame: the lever of the coefficient makes up for what
the divisions lose. -/
theorem Approach.tame_of_five_le (approach : Approach a b amp d) (aPos : 1 ≤ a) (bPos : 1 ≤ b)
    (five : 5 ≤ amp) (skew : a ≤ 19 * b) : Tame a b amp d := by
  have two := approach.two_mul_le aPos bPos (by omega) (m := 1) (by omega) aPos bPos
  have product : 0 ≤ a * b := by positivity
  have lever : 4 * a * b * 8 * d ≤ 4 * a * b * (2 * amp - 2) * d := by
    apply mul_le_mul_of_nonneg_right _ (by omega)
    exact mul_le_mul_of_nonneg_left (by omega) (by linarith)
  have constant : a * b * 2 ≤ a * b * d := mul_le_mul_of_nonneg_left two product
  have skewed : a * a ≤ a * (19 * b) := mul_le_mul_of_nonneg_left skew (by omega)
  have atLeast : a * d * 1 ≤ a * d * b := mul_le_mul_of_nonneg_left bPos (by positivity)
  have scaled := mul_le_mul_of_nonneg_right skewed (show 0 ≤ d by omega)
  have square : 0 ≤ d * (2 * d - a) ^ 2 := by positivity
  have room : 0 ≤ d * (d * (d - 2)) := by
    have : 0 ≤ d - 2 := by omega
    positivity
  unfold Tame
  linarith

/-- From a coefficient of two on the invariant is more than two thirds of the first reserve. -/
theorem Approach.two_mul_add_four_le (approach : Approach a b amp d) (aPos : 1 ≤ a) (three : 3 ≤ b)
    (two : 2 ≤ amp) (skew : a ≤ 19 * b) : 2 * a + 4 ≤ 3 * d := by
  by_contra small
  have cubic := approach.cubic_lt_of_le aPos (by omega) (by omega) (n := 3) (m := 2 * a + 6)
    (by norm_num) (by omega)
  have room : 0 ≤ a + 3 * b - 6 := by omega
  have lever := mul_le_mul_of_nonneg_left two (show 0 ≤ a * b * (a + 3 * b - 6) by positivity)
  have skewed := mul_le_mul_of_nonneg_left skew (sq_nonneg a)
  have atLeast := mul_le_mul_of_nonneg_left three (sq_nonneg a)
  have atLeast' := mul_le_mul_of_nonneg_left three (show 0 ≤ a * b by positivity)
  have atLeast'' := mul_le_mul_of_nonneg_left three (show 0 ≤ a by omega)
  have : 0 ≤ a ^ 2 := sq_nonneg a
  linarith

theorem Approach.tame_of_two_le (approach : Approach a b amp d) (aPos : 1 ≤ a) (three : 3 ≤ b)
    (two : 2 ≤ amp) (skew : a ≤ 19 * b) : Tame a b amp d := by
  have large := approach.two_mul_add_four_le aPos three two skew
  have least : 3 ≤ d := by
    apply approach.le_of_residual aPos (by omega) (by omega)
    have product : 12 ≤ 4 * a * b := by nlinarith
    have := mul_le_mul_of_nonneg_right (show 4 ≤ 2 * amp by omega) (show 0 ≤ a + b - 3 by omega)
    unfold residual
    nlinarith
  have lever : 4 * a * b * 2 * d ≤ 4 * a * b * (2 * amp - 2) * d := by
    apply mul_le_mul_of_nonneg_right _ (by omega)
    exact mul_le_mul_of_nonneg_left (by omega) (by positivity)
  have cubic := mul_le_mul_of_nonneg_left large (sq_nonneg d)
  have reserve := mul_le_mul_of_nonneg_left three (show 0 ≤ a * (d - 3) from
    mul_nonneg (by omega) (by omega))
  -- only at three and four does the first term not carry the others
  have rest : 0 ≤ a * (14 * d - 60) + 2 * d ^ 2 + 5 * d := by
    obtain rfl | rfl | more : d = 3 ∨ d = 4 ∨ 5 ≤ d := by omega
    · have one : a < 2 := by
        by_contra many
        have := approach.two_mul_le aPos (by omega) (by omega) (m := 2) (by omega) (by omega) (by omega)
        omega
      omega
    · omega
    · have : 0 ≤ 14 * d - 60 := by omega
      positivity
  unfold Tame
  linarith

/-- With the coefficient one the invariant is more than two thirds of the first reserve by a margin,
unless the pool is small and close to the limit of its skew. -/
theorem Approach.two_mul_add_margin_le (approach : Approach a b 1 d) (aPos : 1 ≤ a)
    (thirteen : 13 ≤ b) (skew : a ≤ 19 * b) (room : 19 * a + 864 ≤ 369 * b) :
    2 * a + 24 ≤ 3 * d := by
  by_contra small
  have cubic : 9 * (a * b) * (2 * a + 3 * b - 13) < (a + 13) ^ 3 := by
    linarith [approach.cubic_lt_of_le aPos (by omega) le_rfl (n := 3) (m := 2 * a + 26) (by norm_num)
      (by omega)]
  by_cases few : a ≤ 207
  · have product := mul_le_mul thirteen (show 2 * a + 26 ≤ 2 * a + 3 * b - 13 by omega) (by omega)
      (by omega)
    have scaled := mul_le_mul_of_nonneg_left product (show 0 ≤ 9 * a by omega)
    have : 0 ≤ (a + 13) * ((a - 1) * (207 - a)) :=
      mul_nonneg (by omega) (mul_nonneg (by omega) (by omega))
    linarith
  · obtain ⟨lack, isLack⟩ : ∃ lack, 19 * b - a = lack := ⟨_, rfl⟩
    have bracket : 13 ≤ 8 * b ^ 2 + 20 * (lack * b) - 858 * b - lack ^ 2 + 39 * lack - 507 := by
      -- from 108 units on the square of `b` is enough, and below that the room that is left
      by_cases many : 108 ≤ b
      · have : 0 ≤ lack * (20 * b - lack) := mul_nonneg (by omega) (by omega)
        have : 0 ≤ (b - 108) * (8 * b + 6) := mul_nonneg (by omega) (by omega)
        linarith
      · have : 0 ≤ (19 * lack + 8 * b - 864) * (388 * b - 123 - 19 * lack) :=
          mul_nonneg (by omega) (by omega)
        have : 0 ≤ (b - 13) * (108 - b) := mul_nonneg (by omega) (by omega)
        linarith
    have scaled := mul_le_mul_of_nonneg_left bracket (show 0 ≤ a by omega)
    obtain rfl : a = 19 * b - lack := by omega
    linarith

/-- With the coefficient one all values are tame, unless the pool is small and close to the limit of
its skew. -/
theorem Approach.tame_of_margin (approach : Approach a b 1 d) (aPos : 1 ≤ a) (thirteen : 13 ≤ b)
    (skew : a ≤ 19 * b) (room : 19 * a + 864 ≤ 369 * b) : Tame a b 1 d := by
  have dPos := approach.pos
  have large := approach.two_mul_add_margin_le aPos thirteen skew room
  have mean := approach.four_mul_le aPos (by omega) (by omega)
  have cubic := mul_le_mul_of_nonneg_left large (sq_nonneg d)
  have square := mul_le_mul_of_nonneg_left large (show 0 ≤ d by omega)
  have : 0 ≤ d ^ 2 := sq_nonneg d
  unfold Tame
  linarith

end PegPool.Curve
