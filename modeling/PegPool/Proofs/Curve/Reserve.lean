import PegPool.Curve.Reserve
import PegPool.Proofs.Curve.Invariant

/-!
# The reserve that is calculated

The iteration for a reserve may end one unit off and rounds its constant down twice, so the reserve
`y` that it gives for `x` and `d` can be too small to make the invariant `d`.  It is never far off:
the last step is taken from above the root, so the reserve equation is positive at `y + 1`
(`otherAmount_spec`).  From there `residual_of_reserve` leads back to the exact invariant, and
`y + 2` always makes it (`residual_nonneg_of_reserve`).
-/

namespace PegPool.Curve

variable {x d amp : Int}

/-- A step ends at most one unit below the larger root of the reserve equation. -/
theorem reserveStep_spec {b c r y z : Word} (stepped : reserveStep b c r z = .ok y) :
    1 ≤ ((y.val : Int) + 1) * (y.val + 1) + (b.val - r.val) * (y.val + 1) - c.val := by
  simp only [reserveStep, bind_eq_ok, Word.mul_eq_ok, Word.add_eq_ok, Word.sub_eq_ok,
    Word.div_eq_ok] at stepped
  obtain ⟨square, isSquare, numerator, isNumerator, double, isDouble, sloped, isSloped, denominator,
    isDenominator, nonzero, isQuotient⟩ := stepped
  obtain ⟨-, quotientLt⟩ :=
    Word.fdiv_bounds (n := numerator.val) (show 0 < (denominator.val : Int) by omega)
  rw [← isQuotient, isNumerator, isSquare, isDenominator, isSloped, isDouble] at quotientLt
  have tangent : 0 ≤ ((y.val : Int) + 1 - z.val) ^ 2 := sq_nonneg _
  linarith

theorem otherReserve_spec {cap y : Nat} (capPos : 1 ≤ cap)
    (calculated : (otherReserve cap x d amp).outcome = .ok y) :
    (1 ≤ x ∧ 0 ≤ d ∧ 1 ≤ amp) ∧ 1 ≤ reserveResidual x d amp (y + 1) := by
  obtain ⟨cap, rfl⟩ : ∃ n, cap = n + 1 := ⟨cap - 1, by omega⟩
  simp only [otherReserve, Traced.outcome_bind, Traced.outcome_liftM, Traced.outcome_ite,
    bind_eq_ok, Word.read_int, Word.ofInt_eq_ok, Word.mul_eq_ok, Word.add_eq_ok, Word.div_eq_ok,
    Word.narrowed_eq_ok, leverage_eq_ok, Traced.outcome_pure, Traced.outcome_log, ok_bind, ite_self,
    Except.ok.injEq] at calculated
  obtain ⟨ann, ⟨isAnn, -⟩, rx, isX, twoX, isTwoX, _, ⟨rfl, -⟩, rd, isD, square, isSquare, q, ⟨xNonzero, isQ⟩,
    cross, isCross, twoAnn, isTwoAnn, c, ⟨annNonzero, isC⟩, quotient, ⟨-, isQuotient⟩, b, isB, r, settled,
    rfl⟩ := calculated
  obtain ⟨z, stepped⟩ := last_step_of_settle settled
  have above := reserveStep_spec stepped
  have isConstant : (c.val : Int) = reserveConstant x d amp := by
    rw [isC, isCross, isQ, isSquare, isTwoX, isTwoAnn, isAnn, isX, isD, reserveConstant]
    ring_nf
  have isSlope : (b.val : Int) = reserveSlope x d amp := by
    rw [isB, isQuotient, isAnn, isX, isD, reserveSlope]
  rw [isConstant, isSlope, isD] at above
  exact ⟨by omega, above⟩

theorem otherAmount_spec {cap y : Nat} (capPos : 1 ≤ cap)
    (calculated : (otherAmount cap x d amp).outcome = .ok y) :
    (1 ≤ x ∧ 0 ≤ d ∧ 1 ≤ amp) ∧ 1 ≤ reserveResidual x d amp (y + 1) := by
  simp only [otherAmount, Traced.outcome_bind, Traced.outcome_liftM, bind_eq_ok,
    Word.ofInt_eq_ok, Word.narrow_eq_ok] at calculated
  obtain ⟨z, solved, w, isW, rfl, -⟩ := calculated
  obtain rfl : z = w.val := by omega
  exact otherReserve_spec capPos solved

variable {z : Int}

/-- Where the reserve equation is positive, the exact invariant is missed by less than twice the
product of the known reserve and the invariant. -/
theorem residual_of_reserve (xPos : 1 ≤ x) (dPos : 1 ≤ d) (ampPos : 1 ≤ amp) (zNonneg : 0 ≤ z)
    (above : 1 ≤ reserveResidual x d amp z) : 2 * x - (2 * x - 1) * d ≤ residual x z amp d := by
  obtain ⟨-, lossLe⟩ := cube_loss xPos (show 1 ≤ 2 * amp by omega) dPos
  change d ^ 3 - 4 * x * (2 * amp) * reserveConstant x d amp ≤ _ at lossLe
  obtain ⟨quotientLe, -⟩ := Word.fdiv_bounds (n := d) (show 0 < 2 * amp by omega)
  have slope : 4 * x * z * (d.fdiv (2 * amp) * (2 * amp)) ≤ 4 * x * z * d :=
    mul_le_mul_of_nonneg_left quotientLe (by positivity)
  have scaled := mul_le_mul_of_nonneg_left above (show 0 ≤ 4 * x * (2 * amp) by positivity)
  unfold reserveResidual reserveSlope at scaled
  unfold residual
  linarith

theorem le_add_of_reserve (xPos : 1 ≤ x) (dPos : 1 ≤ d) (ampPos : 1 ≤ amp) (zNonneg : 0 ≤ z)
    (above : 1 ≤ reserveResidual x d amp z) : d ≤ x + z := by
  have near := residual_of_reserve xPos dPos ampPos zNonneg above
  by_contra large
  have product : 0 ≤ 4 * x * z := by positivity
  have pull : 4 * x * z * (2 * amp * (x + z + 1 - d)) ≤ 0 :=
    mul_nonpos_of_nonneg_of_nonpos product (mul_nonpos_of_nonneg_of_nonpos (by omega) (by omega))
  have lever : 0 ≤ 4 * x * z * (2 * amp) := by positivity
  have mean : d * (4 * x * z) ≤ d * (x + z) ^ 2 :=
    mul_le_mul_of_nonneg_left (by nlinarith [sq_nonneg (x - z)]) (by omega)
  have room : d * (x + z) ^ 2 ≤ d * (d - 1) ^ 2 :=
    mul_le_mul_of_nonneg_left (by nlinarith) (by omega)
  unfold residual at near
  nlinarith

/-- Two units above the reserve that is calculated the pool has the invariant. -/
theorem residual_nonneg_of_reserve (xPos : 1 ≤ x) (dPos : 1 ≤ d) (ampPos : 1 ≤ amp)
    (zNonneg : 0 ≤ z) (above : 1 ≤ reserveResidual x d amp z) {y : Int} (more : z + 1 ≤ y) :
    0 ≤ residual x y amp d := by
  have near := residual_of_reserve xPos dPos ampPos zNonneg above
  have atMost := le_add_of_reserve xPos dPos ampPos zNonneg above
  have next : residual x (z + 1) amp d - residual x z amp d =
      4 * x * (2 * amp * (z + 1 + (x + z - d))) + 4 * x * d := by
    unfold residual
    ring
  have gain : 0 ≤ 4 * x * (2 * amp * (z + 1 + (x + z - d))) := by
    have : 0 ≤ x + z - d := by omega
    positivity
  have grown := residual_mono_right xPos (show 1 ≤ z + 1 by omega) ampPos more (t := d) (by omega)
    (by omega)
  have : 0 ≤ x * d := by positivity
  linarith

/-! ## One total further

The exact invariant is an integer part, so a few units more in a reserve may carry the pool over to
the next total.  Three units above the calculated reserve do unless that reserve is much the larger
one, and two units do if it is much the smaller one. -/

/-- Unless the calculated reserve is much larger than the other one, three units more reach the next
total. -/
theorem residual_succ_nonneg_of_le (xPos : 1 ≤ x) (dPos : 1 ≤ d) (ampPos : 1 ≤ amp) (zPos : 1 ≤ z)
    (above : 1 ≤ reserveResidual x d amp z) (le : z + 2 ≤ 4 * x) :
    0 ≤ residual x (z + 2) amp (d + 1) := by
  have near := residual_of_reserve xPos dPos ampPos (by omega) above
  have atMost := le_add_of_reserve xPos dPos ampPos (by omega) above
  have further : residual x (z + 2) amp (d + 1) - residual x z amp d =
      2 * amp * (4 * x * z + 8 * x * (x + z - d) + 8 * x) + 4 * x * z + 8 * x * d + 8 * x -
        3 * d ^ 2 - 3 * d - 1 := by
    unfold residual
    ring
  obtain ⟨m, isGap⟩ : ∃ m, x + z - d = m := ⟨_, rfl⟩
  obtain rfl : d = x + z - m := by omega
  have gapNonneg : 0 ≤ m := by omega
  have gain : 0 ≤ 4 * x * z + 8 * x * (x + z - (x + z - m)) + 8 * x := by
    have : 0 ≤ x + z - (x + z - m) := by omega
    positivity
  have lever := mul_le_mul_of_nonneg_right (show 2 ≤ 2 * amp by omega) gain
  have gapGain : 0 ≤ m * (16 * x + 6 * z - 3 * m) := mul_nonneg gapNonneg (by omega)
  have reserveGain : 0 ≤ 3 * z * (4 * x - 2 - z) := mul_nonneg (by omega) (by omega)
  have : 0 ≤ x ^ 2 := sq_nonneg x
  linarith

/-- A calculated reserve that misses the next total by two units, beside a much larger one, makes a
total close to the sum of both. -/
theorem nine_mul_add_le_of_residual_succ_neg {w u : Int} (dPos : 1 ≤ d) (ampPos : 1 ≤ amp)
    (uPos : 1 ≤ u) (ge : 4 * u + 5 ≤ w) (above : 1 ≤ reserveResidual w d amp u)
    (missed : residual w (u + 1) amp (d + 1) < 0) : 9 * w + 10 * u ≤ 10 * d := by
  have near := residual_of_reserve (show 1 ≤ w by omega) dPos ampPos (by omega) above
  have atMost := le_add_of_reserve (show 1 ≤ w by omega) dPos ampPos (by omega) above
  have further : residual w (u + 1) amp (d + 1) - residual w u amp d =
      4 * w * u + 2 * amp * (4 * w * (w + u - d)) + 4 * w * (d + 1) - 3 * d ^ 2 - 3 * d - 1 := by
    unfold residual
    ring
  have lever := mul_le_mul_of_nonneg_right (show 2 ≤ 2 * amp by omega)
    (show 0 ≤ 4 * w * (w + u - d) from mul_nonneg (by omega) (by omega))
  have square : 8 * w ^ 2 + 12 * (w * u) + 6 * w < 6 * (w * d) + 3 * d ^ 2 + 2 * d + 1 := by
    linarith
  by_contra small
  have product : 10 * (w * d) ≤ w * (9 * w + 10 * u) := by
    have := mul_le_mul_of_nonneg_left (show 10 * d ≤ 9 * w + 10 * u by omega) (show 0 ≤ w by omega)
    linarith
  have power : (10 * d) ^ 2 ≤ (9 * w + 10 * u) ^ 2 := pow_le_pow_left₀ (by omega) (by omega) 2
  have skew : w * (4 * u + 5) ≤ w * w := mul_le_mul_of_nonneg_left ge (by omega)
  have : u * (4 * u + 5) ≤ u * w := mul_le_mul_of_nonneg_left ge (by omega)
  nlinarith

/-- If the calculated reserve is much smaller than the other one, two units more reach the next
total. -/
theorem residual_succ_nonneg_of_ge {w u : Int} (dPos : 1 ≤ d) (ampPos : 1 ≤ amp) (uPos : 1 ≤ u)
    (ge : 4 * u + 5 ≤ w) (above : 1 ≤ reserveResidual w d amp u) :
    0 ≤ residual w (u + 1) amp (d + 1) := by
  by_contra missed
  have near := residual_of_reserve (show 1 ≤ w by omega) dPos ampPos (by omega) above
  have atMost := le_add_of_reserve (show 1 ≤ w by omega) dPos ampPos (by omega) above
  have large := nine_mul_add_le_of_residual_succ_neg dPos ampPos uPos ge above (by omega)
  -- what the coefficient contributes is eliminated between the two residuals
  have eliminated : u * residual w (u + 1) amp (d + 1) - (u + 1) * residual w u amp d =
      d ^ 3 - 3 * (u * d ^ 2) - 3 * (u * d) - u + 4 * w * u * (u + 1) := by
    unfold residual
    ring
  have scaled := mul_le_mul_of_nonneg_left near (show 0 ≤ u + 1 by omega)
  have negative : u * residual w (u + 1) amp (d + 1) < 0 := mul_neg_of_pos_of_neg (by omega) (by omega)
  have steep : 2 * (w * u) + 2 * w - 2 * u ^ 2 ≤ d * (d - 3 * u) := by
    have grown : (9 * w + 10 * u) * (9 * w - 20 * u) ≤ (10 * d) * (10 * d - 30 * u) :=
      mul_le_mul large (by omega) (by omega) (by omega)
    have skew := mul_le_mul_of_nonneg_left ge (show 0 ≤ w by omega)
    nlinarith
  have cubic := mul_le_mul_of_nonneg_left steep (show 0 ≤ d by omega)
  have : u ^ 2 * d ≤ u ^ 2 * (2 * w) := mul_le_mul_of_nonneg_left (by omega) (sq_nonneg u)
  have : u * d ≤ u * (2 * w) := mul_le_mul_of_nonneg_left (by omega) (by omega)
  nlinarith

end PegPool.Curve
