import PegPool.Proofs.Curve.Accuracy

/-!
# Which pools do not swing

The iteration can only fail to settle by swinging between a number `v` and the one after the next
(`Swings`).  Both steps of a swing round: together they need the quotient by the doubled reserves to
grow from `v` to `v + 2` by much more than the slope of the cube says, which it does only if `v` is
less than about four sevenths of the first reserve (`Swings.cubic_lt`).
-/

namespace PegPool.Curve

variable {a b amp d v : Int}

/-! ## Values of the iteration in skewed pools -/

theorem Approach.le_two_mul (approach : Approach a b amp d) (aPos : 1 ≤ a) (bPos : 1 ≤ b)
    (ampPos : 1 ≤ amp) (skew : a ≤ 32 * amp * b) : a ≤ 2 * d := by
  by_contra small
  have cubic := approach.cubic_lt_of_le aPos bPos ampPos (n := 2) (m := a + 1) (by norm_num) (by omega)
  have room : 0 ≤ a + 2 * b - 1 := by omega
  have lever := mul_le_mul_of_nonneg_left skew (show 0 ≤ a * (a + 2 * b - 1) by positivity)
  have square : a ^ 2 * 1 ≤ a ^ 2 * b := mul_le_mul_of_nonneg_left bPos (sq_nonneg a)
  have product : a * (a + 1) * 1 ≤ a * (a + 1) * b := mul_le_mul_of_nonneg_left bPos (by positivity)
  linarith [sq_nonneg a]

theorem Approach.four_mul_le_seven_mul (approach : Approach a b amp d) (aPos : 1 ≤ a) (bPos : 1 ≤ b)
    (ampPos : 1 ≤ amp) (skew : a ≤ 16 * amp * b) : 4 * a ≤ 7 * d := by
  by_contra small
  have cubic := approach.cubic_lt_of_le aPos bPos ampPos (n := 7) (m := 4 * a + 6) (by norm_num)
    (by omega)
  have room : 0 ≤ 3 * a + 7 * b - 6 := by omega
  have lever := mul_le_mul_of_nonneg_left skew (show 0 ≤ a * (3 * a + 7 * b - 6) by positivity)
  have square : a ^ 2 * 1 ≤ a ^ 2 * b := mul_le_mul_of_nonneg_left bPos (sq_nonneg a)
  have product : a * (4 * a + 6) * 1 ≤ a * (4 * a + 6) * b :=
    mul_le_mul_of_nonneg_left bPos (by positivity)
  have : 0 < a ^ 3 := by positivity
  linarith [sq_nonneg a]

theorem mild_of_lever (half : a ≤ 2 * d) (dPos : 1 ≤ d) (aPos : 1 ≤ a)
    (fall : 48 * a * b ≤ (4 * a * b * (8 * amp - 7) - 18 * a) * d)
    (climb : 36 * a * b ≤ (4 * a * b * (4 * amp - 3) - 16 * a) * d) : Mild a b amp d := by
  have cubic := mul_le_mul_of_nonneg_left half (sq_nonneg d)
  have square : d * 1 ≤ d * d := mul_le_mul_of_nonneg_left dPos (by omega)
  have cube : d ^ 2 * 1 ≤ d ^ 2 * d := mul_le_mul_of_nonneg_left dPos (sq_nonneg d)
  constructor
  · linarith
  · linarith

/-! ## Swings -/

/-- The quotients of the first division by the doubled reserve, at `v` and two above it. -/
theorem exists_halfQuotient (aPos : 1 ≤ a) (bPos : 1 ≤ b) (vPos : 1 ≤ v) (less : v < a) :
    ∃ q : Int, v ^ 2 < (q + 1) * (2 * a) ∧ q * (2 * a) ≤ v ^ 2 ∧
      q * v < (cubeQuotient a b v + 1) * (2 * b) ∧
      cubeQuotient a b (v + 2) * (2 * b) ≤ (q + 2) * (v + 2) := by
  obtain ⟨q, qLe, qLt, -, pLt⟩ := cubeQuotient_spec aPos bPos v
  obtain ⟨q', qLe', -, pLe', -⟩ := cubeQuotient_spec aPos bPos (v + 2)
  refine ⟨q, by linarith, by linarith, pLt, pLe'.trans ?_⟩
  have grown : q' ≤ q + 2 := by
    have : q' * (2 * a) < (q + 3) * (2 * a) := by linarith
    have := lt_of_mul_lt_mul_right this (by omega)
    omega
  exact mul_le_mul_of_nonneg_right grown (by omega)

/-- What the two steps of a swing say about the quotients, free of the sum of the reserves. -/
theorem Swings.quotient_lt (swings : Swings a b amp v) (vPos : 1 ≤ v) :
    (v + 2) * (v * (2 * amp - 1) + (v + 6) * cubeQuotient a b v) <
      v * (v - 1) * cubeQuotient a b (v + 2) := by
  have up := mul_le_mul_of_nonneg_left swings.up.le (show 0 ≤ v + 2 by omega)
  have down := mul_lt_mul_of_pos_left swings.down.lt (show 0 < v by omega)
  linarith

theorem Swings.cubic_lt (swings : Swings a b amp v) (aPos : 1 ≤ a) (bPos : 1 ≤ b) (vPos : 1 ≤ v)
    (less : v < a) :
    7 * v ^ 3 + 8 * a * b * (amp - 1) * v < 4 * a * v ^ 2 + 8 * a * v + 24 * a * b := by
  obtain ⟨q, qLt, -, pLt, pLe'⟩ := exists_halfQuotient aPos bPos vPos less
  have quotient := mul_lt_mul_of_pos_left (swings.quotient_lt vPos) (show 0 < 2 * b by omega)
  generalize cubeQuotient a b v = p at *
  generalize cubeQuotient a b (v + 2) = p' at *
  have upper := mul_le_mul_of_nonneg_left pLe' (show 0 ≤ v * (v - 1) from
    mul_nonneg (by omega) (by omega))
  have lower := mul_le_mul_of_nonneg_left (show q * v + 1 - 2 * b ≤ 2 * b * p by linarith)
    (show 0 ≤ (v + 2) * (v + 6) from mul_nonneg (by omega) (by omega))
  have swing : (v + 2) * (7 * (q * v) + 4 * b * (amp - 1) * v) <
      (v + 2) * (2 * v ^ 2 - 3 * v + 12 * b - 6) := by linarith
  have swing' := lt_of_mul_lt_mul_left swing (by omega)
  have scaled := mul_lt_mul_of_pos_left swing' (show 0 < 2 * a by omega)
  have half := mul_le_mul_of_nonneg_left (show v ^ 2 + 1 - 2 * a ≤ q * (2 * a) by linarith)
    (show 0 ≤ 7 * v by omega)
  linarith

/-! ## Coefficients from two on -/

theorem Approach.mild_of_two_le (approach : Approach a b amp d) (bPos : 1 ≤ b)
    (two : 2 ≤ amp) (steep : 19 * b < a) (skew : a ≤ 16 * amp * b) : Mild a b amp d := by
  have aPos : 20 ≤ a := by omega
  have half := approach.four_mul_le_seven_mul (by omega) bPos (by omega) skew
  have product : a * 1 ≤ a * b := mul_le_mul_of_nonneg_left bPos (by omega)
  have lever : a * b * 2 ≤ a * b * amp := mul_le_mul_of_nonneg_left two (by positivity)
  have large : a * b * 9 ≤ a * b * d := mul_le_mul_of_nonneg_left (by omega) (by positivity)
  have fall := mul_le_mul_of_nonneg_right
    (show 18 * (a * b) ≤ 4 * a * b * (8 * amp - 7) - 18 * a by linarith) (show 0 ≤ d by omega)
  have climb := mul_le_mul_of_nonneg_right
    (show 4 * (a * b) ≤ 4 * a * b * (4 * amp - 3) - 16 * a by linarith) (show 0 ≤ d by omega)
  exact mild_of_lever (by omega) (by omega) (by omega) (by linarith) (by linarith)

theorem tame_of_large (bPos : 1 ≤ b) (steep : 19 * b < a) (lever : 2 ≤ b * (amp - 1))
    (leverB : b ≤ b * (amp - 1)) (large : 2 * a + 4 ≤ 3 * d) : Tame a b amp d := by
  have aPos : 20 ≤ a := by omega
  have cubic := mul_le_mul_of_nonneg_left large (sq_nonneg d)
  have double := mul_le_mul_of_nonneg_left lever (show 0 ≤ a * d from mul_nonneg (by omega) (by omega))
  have single := mul_le_mul_of_nonneg_left leverB (show 0 ≤ a * d from mul_nonneg (by omega) (by omega))
  have : a * b * 8 ≤ a * b * d := mul_le_mul_of_nonneg_left (by omega) (by positivity)
  have : 0 ≤ d ^ 2 := sq_nonneg d
  unfold Tame
  linarith

theorem not_swings_of_two_le (approach : Approach a b amp v) (bPos : 1 ≤ b) (two : 2 ≤ amp)
    (roomy : 3 ≤ amp ∨ 2 ≤ b) (steep : 19 * b < a) (skew : a ≤ 16 * amp * b) :
    ¬ Swings a b amp v := by
  intro swings
  have aPos : 20 ≤ a := by omega
  have lever : 2 ≤ b * (amp - 1) := by
    rcases roomy with three | twoB
    · nlinarith
    · nlinarith
  have leverB : b ≤ b * (amp - 1) := le_mul_of_one_le_right (by omega) (by omega)
  by_cases large : 2 * a + 4 ≤ 3 * v
  · exact swings.not_tame approach (by omega) bPos (tame_of_large bPos steep lever leverB large)
  · have seven := approach.four_mul_le_seven_mul (by omega) bPos (by omega) skew
    have cubic := swings.cubic_lt (by omega) bPos approach.pos (by omega)
    have scaled := mul_le_mul_of_nonneg_left seven (sq_nonneg v)
    have double := mul_le_mul_of_nonneg_left lever (show 0 ≤ a * v from mul_nonneg (by omega) (by omega))
    have single := mul_le_mul_of_nonneg_left leverB (show 0 ≤ a * v from mul_nonneg (by omega) (by omega))
    have product : 0 < a * b := by positivity
    have : a * b * 10 ≤ a * b * v := mul_le_mul_of_nonneg_left (by omega) product.le
    linarith

/-! ## The coefficient one -/

theorem Approach.mild_of_one (approach : Approach a b 1 d) (twenty : 20 ≤ b) (steep : 19 * b < a)
    (skew : a ≤ 32 * b) : Mild a b 1 d := by
  have half := approach.le_two_mul (by omega) (by omega) (by omega) (by omega)
  have product : a * 20 ≤ a * b := mul_le_mul_of_nonneg_left twenty (by omega)
  have large : a * b * 16 ≤ a * b * d :=
    mul_le_mul_of_nonneg_left (by omega) (mul_nonneg (by omega) (by omega))
  have lever := mul_le_mul_of_nonneg_right
    (show 3 * (a * b) ≤ 4 * a * b * 1 - 18 * a by linarith) (show 0 ≤ d by omega)
  have : 0 ≤ a * d := mul_nonneg (by omega) (by omega)
  exact mild_of_lever half (by omega) (by omega) (by linarith) (by linarith)

theorem lt_of_residual_nonneg (bPos : 1 ≤ b) (steep : 19 * b < a)
    (before : 0 ≤ residual a b 1 v) : v < a := by
  by_contra atLeast
  have reserve : residual a b 1 v ≤ residual a b 1 a :=
    residual_anti (by omega) bPos le_rfl (by omega) (by omega)
  have square := mul_lt_mul_of_pos_left steep (show 0 < a ^ 2 from pow_pos (by omega) 2)
  have product := mul_lt_mul_of_pos_left steep (show 0 < a * b from mul_pos (by omega) (by omega))
  have : 0 ≤ a * b ^ 2 := mul_nonneg (by omega) (sq_nonneg b)
  unfold residual at reserve before
  linarith

/-- Up to a skew of 61 to 2 the invariant is more than four sevenths of the first reserve by a
margin. -/
theorem Approach.four_mul_add_margin_le (approach : Approach a b 1 d) (twenty : 20 ≤ b)
    (steep : 19 * b < a) (skew : 2 * a ≤ 61 * b) : 4 * a + 20 ≤ 7 * d := by
  by_contra small
  have aPos : 380 ≤ a := by omega
  have cubic := approach.cubic_lt_of_le (by omega) (by omega) le_rfl (n := 7) (m := 4 * a + 26)
    (by norm_num) (by omega)
  have product : a * 20 ≤ a * b := mul_le_mul_of_nonneg_left twenty (by omega)
  have square : a * b * 20 ≤ a * b * b := mul_le_mul_of_nonneg_left twenty (by positivity)
  have linear := mul_le_mul_of_nonneg_left skew (show 0 ≤ a by omega)
  have cube := mul_le_mul_of_nonneg_left skew (show 0 ≤ a * (8 * a - b) from
    mul_nonneg (by omega) (by omega))
  linarith

/-- From a skew of 61 to 2 up to the one of 32 the invariant is bounded by a line through both. -/
theorem Approach.two_mul_add_le (approach : Approach a b 1 d) (twenty : 20 ≤ b)
    (steep : 61 * b ≤ 2 * a) (skew : a ≤ 32 * b) : 2 * a + 27 * b ≤ 5 * d := by
  by_contra small
  have cubic := approach.cubic_lt_of_le (by omega) (by omega) le_rfl (n := 5)
    (m := 2 * a + 27 * b + 4) (by norm_num) (by omega)
  have doubled : 50 * (2 * a) * b * (4 * (2 * a) - 17 * b - 4) < (2 * a + 27 * b + 4) ^ 3 := by
    linarith
  obtain ⟨more, isMore⟩ : ∃ more, 2 * a = 61 * b + more := ⟨2 * a - 61 * b, by omega⟩
  rw [isMore] at doubled
  have moreNonneg : 0 ≤ more := by omega
  have moreLe : more ≤ 3 * b := by omega
  have product := mul_le_mul_of_nonneg_left moreLe (show 0 ≤ b by omega)
  have square := mul_le_mul_of_nonneg_left moreLe moreNonneg
  have cube := mul_le_mul_of_nonneg_left moreLe (sq_nonneg more)
  have mixed := mul_le_mul_of_nonneg_left moreLe (show 0 ≤ b * more from mul_nonneg (by omega) moreNonneg)
  have mixed' : 0 ≤ b ^ 2 * more := mul_nonneg (sq_nonneg b) moreNonneg
  have large := mul_le_mul_of_nonneg_left twenty (sq_nonneg b)
  have large' := mul_le_mul_of_nonneg_left twenty (show 0 ≤ b by omega)
  linarith

theorem not_swings_of_margin (vPos : 1 ≤ v) (bPos : 1 ≤ b) (steep : 19 * b < a) (less : v < a)
    (margin : 4 * a + 20 ≤ 7 * v) : ¬ Swings a b 1 v := by
  intro swings
  have cubic := swings.cubic_lt (by omega) bPos vPos less
  have cube := mul_le_mul_of_nonneg_left margin (sq_nonneg v)
  have square := mul_le_mul_of_nonneg_left margin (show 0 ≤ v by omega)
  have product := mul_le_mul_of_nonneg_left (show 7 * b ≤ v by omega) (show 0 ≤ a by omega)
  linarith

/-- The quotient is more than five halves of a value with a square this large. -/
theorem five_mul_lt_cubeQuotient (aPos : 1 ≤ a) (bPos : 1 ≤ b) (large : 4 * b ≤ d)
    (square : 10 * a * b + 3 * a ≤ d ^ 2) : 5 * d < 2 * cubeQuotient a b d := by
  obtain ⟨-, loss⟩ := cube_loss aPos bPos (show 1 ≤ d by omega)
  have cube := mul_le_mul_of_nonneg_right square (show 0 ≤ d by omega)
  have linear := mul_le_mul_of_nonneg_left large (show 0 ≤ a by omega)
  have scaled : 2 * a * b * (5 * d) < 2 * a * b * (2 * cubeQuotient a b d) := by linarith
  exact lt_of_mul_lt_mul_left scaled (by positivity)

theorem Approach.le_sq (approach : Approach a b 1 d) (twenty : 20 ≤ b) (steep : 61 * b ≤ 2 * a)
    (skew : a ≤ 32 * b) : 10 * a * b + 3 * a ≤ d ^ 2 := by
  have line := mul_self_le_mul_self (show 0 ≤ 2 * a + 27 * b by omega)
    (approach.two_mul_add_le twenty steep skew)
  have convex := mul_le_mul_of_nonneg_left (show 75 ≤ 2 * (2 * a - 10 * b) by omega)
    (show 0 ≤ 2 * a - 61 * b by omega)
  have := mul_le_mul_of_nonneg_left twenty (show 0 ≤ b by omega)
  linarith

theorem cubeQuotient_sub_lt (aPos : 1 ≤ a) (vPos : 1 ≤ v) (twenty : 20 ≤ b) (skew : a ≤ 32 * b)
    (less : v < a) (noMargin : 7 * v < 4 * a + 20) :
    cubeQuotient a b (v + 2) - cubeQuotient a b v < 25 := by
  obtain ⟨q, -, qLe, pLt, pLe'⟩ := exists_halfQuotient aPos (show 1 ≤ b by omega) vPos less
  have whole : 2 * q + 2 * v + 3 < 48 * b := by
    have square := mul_self_le_mul_self (show 0 ≤ 7 * v by omega) (show 7 * v ≤ 4 * a + 19 by omega)
    have linear := mul_le_mul_of_nonneg_left noMargin.le (show 0 ≤ a by omega)
    have skewed := mul_le_mul_of_nonneg_left skew (show 0 ≤ a by omega)
    have product : a * 20 ≤ a * b := mul_le_mul_of_nonneg_left twenty (by omega)
    have scaled : a * (2 * q + 2 * v + 3) < a * (48 * b) := by linarith
    exact lt_of_mul_lt_mul_left scaled (by omega)
  have scaled : 2 * b * (cubeQuotient a b (v + 2) - cubeQuotient a b v) < 2 * b * 25 := by linarith
  exact lt_of_mul_lt_mul_left scaled (by omega)

/-- Near the skew of 32 it decides that the quotients of a swing are whole numbers. -/
theorem not_swings_near_limit (approach : Approach a b 1 v) (twenty : 20 ≤ b)
    (steep : 61 * b ≤ 2 * a) (skew : a ≤ 32 * b) (less : v < a) (noMargin : 7 * v < 4 * a + 20) :
    ¬ Swings a b 1 v := by
  rintro ⟨⟨-, -, -, -, up, -⟩, ⟨-, -, -, -, -, down⟩⟩
  have vPos := approach.pos
  have line := approach.two_mul_add_le twenty steep skew
  have square := approach.le_sq twenty steep skew
  have steepUp : 5 * v < 2 * cubeQuotient a b v :=
    five_mul_lt_cubeQuotient (by omega) (by omega) (by omega) square
  have steepDown : 5 * (v + 2) < 2 * cubeQuotient a b (v + 2) :=
    five_mul_lt_cubeQuotient (by omega) (by omega) (by omega) (by linarith)
  have rises : cubeQuotient a b (v + 2) - cubeQuotient a b v < 25 :=
    cubeQuotient_sub_lt (by omega) vPos twenty skew less noMargin
  generalize cubeQuotient a b v = p at *
  generalize cubeQuotient a b (v + 2) = p' at *
  -- the step up leaves more than fifteen, so at least sixteen, of the sum of the reserves
  have room : 15 < 2 * (a + b) - v - 2 - p := by
    have scaled : v * 15 < v * (2 * (a + b) - v - 2 - p) := by linarith
    exact lt_of_mul_lt_mul_left scaled (by omega)
  have := mul_le_mul_of_nonneg_left (show 3 * p' + v - 6 ≤ 2 * p' + (a + b) * (2 * 1) by omega)
    (show 0 ≤ v + 2 by omega)
  linarith

theorem not_swings_of_one (approach : Approach a b 1 v) (twenty : 20 ≤ b) (steep : 19 * b < a)
    (skew : a ≤ 32 * b) (before : 0 ≤ residual a b 1 v) : ¬ Swings a b 1 v := by
  have less := lt_of_residual_nonneg (by omega) steep before
  by_cases margin : 4 * a + 20 ≤ 7 * v
  · exact not_swings_of_margin approach.pos (by omega) steep less margin
  · have limit : 61 * b ≤ 2 * a := by
      by_contra below
      exact margin (approach.four_mul_add_margin_le twenty steep (by omega))
    exact not_swings_near_limit approach twenty limit skew less (by omega)

end PegPool.Curve
