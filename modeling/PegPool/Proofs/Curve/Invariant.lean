import PegPool.Proofs.Curve.Residual
import PegPool.Proofs.Curve.Settle
import PegPool.Proofs.Word.Exact

/-!
# The invariant that is calculated

For the reserves and coefficients in range (`InRange`) the iteration for the invariant never fails,
and no value that it passes falls below the integer part of the exact invariant
(`exists_invariant`).

Everything about a step of the iteration follows from `NewtonStep`.  The two divisions in it lose
less than `4ab - 2a + (2a - 1) d` of `d³`.  The loss only makes the next value larger, so the tangent
of the cubic still bounds it from below.
-/

namespace PegPool.Curve

variable {a b amp : Int}

/-- The reserves and coefficients for which the invariant is calculated. -/
structure InRange (a b amp : Int) : Prop where
  aPos : 1 ≤ a
  bPos : 1 ≤ b
  ampPos : 1 ≤ amp
  sumFits : a + b < 2 ^ 64
  aFits : 2 * a < 2 ^ 64
  bFits : 2 * b < 2 ^ 64
  ampFits : 2 * amp < 2 ^ 64

/-- What the divisions of a step leave of `d³ / (4ab)`. -/
def cubeQuotient (a b d : Int) : Int :=
  ((d * d).fdiv (2 * a) * d).fdiv (2 * b)

/-- One step from `d` to `e`, where `p` is what the divisions leave of `d³ / (4ab)`. -/
structure NewtonStep (a b amp d p e : Int) : Prop where
  pNonneg : 0 ≤ p
  eNonneg : 0 ≤ e
  /-- The divisions round down. -/
  lossNonneg : 4 * a * b * p ≤ d ^ 3
  /-- The first one loses up to `2a - 1` of `d²`, the second one up to `2b - 1` of its dividend. -/
  lossLe : d ^ 3 - 4 * a * b * p ≤ 4 * a * b - 2 * a + (2 * a - 1) * d
  le : e * (d * (2 * amp - 1) + 3 * p) ≤ d * (2 * p + (a + b) * (2 * amp))
  lt : d * (2 * p + (a + b) * (2 * amp)) < (e + 1) * (d * (2 * amp - 1) + 3 * p)

namespace NewtonStep

variable {d p e : Int}

theorem denominator_pos (newton : NewtonStep a b amp d p e) (ampPos : 1 ≤ amp) (dPos : 1 ≤ d) :
    0 < d * (2 * amp - 1) + 3 * p := by
  have : 0 < d * (2 * amp - 1) := mul_pos (by omega) (by omega)
  have := newton.pNonneg
  omega

theorem two_mul_lt (newton : NewtonStep a b amp d p e) (ampPos : 1 ≤ amp) (dPos : 1 ≤ d)
    (bounded : d * (2 * amp - 1) ≤ (a + b) * (2 * amp)) : 2 * d < 3 * (e + 1) := by
  have positive := newton.denominator_pos ampPos dPos
  by_contra small
  have le : 3 * (e + 1) * (d * (2 * amp - 1) + 3 * p) ≤ 2 * d * (d * (2 * amp - 1) + 3 * p) :=
    mul_le_mul_of_nonneg_right (by omega) positive.le
  have sumPos : 0 < d * (2 * amp - 1) := mul_pos (by omega) (by omega)
  have := mul_le_mul_of_nonneg_left bounded (show 0 ≤ d by omega)
  have := mul_pos (show 0 < d by omega) sumPos
  linarith [newton.lt]

/-- No step passes the integer part of the exact invariant. -/
theorem residual_neg (newton : NewtonStep a b amp d p e) (aPos : 1 ≤ a) (bPos : 1 ≤ b)
    (ampPos : 1 ≤ amp) (dPos : 1 ≤ d) (bounded : d * (2 * amp - 1) ≤ (a + b) * (2 * amp)) :
    residual a b amp (e + 1) < 0 := by
  have product : 0 < 4 * a * b := by positivity
  have ahead := newton.two_mul_lt ampPos dPos bounded
  have lost : d ^ 3 * (2 * d - 3 * (e + 1)) ≤ 4 * a * b * p * (2 * d - 3 * (e + 1)) :=
    mul_le_mul_of_nonpos_right newton.lossNonneg (by omega)
  have step : 4 * a * b * (d * (2 * p + (a + b) * (2 * amp)) + 1) ≤
      4 * a * b * ((e + 1) * (d * (2 * amp - 1) + 3 * p)) :=
    mul_le_mul_of_nonneg_left newton.lt product.le
  have tangent : 0 ≤ d * ((e + 1 - d) ^ 2 * (e + 1 + 2 * d)) := by
    have := newton.eNonneg
    have : 0 ≤ e + 1 + 2 * d := by omega
    positivity
  have scaled : d * residual a b amp (e + 1) < 0 := by
    unfold residual
    linarith
  exact neg_of_mul_neg_right scaled (by omega)

theorem pos (newton : NewtonStep a b amp d p e) (aPos : 1 ≤ a) (bPos : 1 ≤ b) (ampPos : 1 ≤ amp)
    (dPos : 1 ≤ d) (bounded : d * (2 * amp - 1) ≤ (a + b) * (2 * amp)) : 1 ≤ e := by
  by_contra small
  -- a step to zero would pass one, where the residual is positive
  have zero : e = 0 := by
    have := newton.eNonneg
    omega
  have after := newton.residual_neg aPos bPos ampPos dPos bounded
  have before := residual_one_pos aPos bPos ampPos
  rw [zero] at after
  norm_num at after
  omega

theorem bounded (newton : NewtonStep a b amp d p e) (aPos : 1 ≤ a) (bPos : 1 ≤ b)
    (ampPos : 1 ≤ amp) (dPos : 1 ≤ d) (bounded : d * (2 * amp - 1) ≤ (a + b) * (2 * amp)) :
    e * (2 * amp - 1) ≤ (a + b) * (2 * amp) := by
  have positive := newton.denominator_pos ampPos dPos
  by_contra large
  have exceeds : ((a + b) * (2 * amp) + 1) * (d * (2 * amp - 1) + 3 * p) ≤
      e * (2 * amp - 1) * (d * (2 * amp - 1) + 3 * p) :=
    mul_le_mul_of_nonneg_right (by omega) positive.le
  have step : e * (d * (2 * amp - 1) + 3 * p) * (2 * amp - 1) ≤
      d * (2 * p + (a + b) * (2 * amp)) * (2 * amp - 1) :=
    mul_le_mul_of_nonneg_right newton.le (by omega)
  have pull : p * (d * (2 * amp - 1)) ≤ p * ((a + b) * (2 * amp)) :=
    mul_le_mul_of_nonneg_left bounded newton.pNonneg
  have : 0 ≤ p * ((a + b) * (2 * amp)) := by
    have := newton.pNonneg
    positivity
  linarith

end NewtonStep

theorem cubeQuotient_spec (aPos : 1 ≤ a) (bPos : 1 ≤ b) (d : Int) :
    ∃ q : Int, q * (2 * a) ≤ d * d ∧ d * d < (q + 1) * (2 * a) ∧
      cubeQuotient a b d * (2 * b) ≤ q * d ∧ q * d < (cubeQuotient a b d + 1) * (2 * b) := by
  obtain ⟨firstLe, firstLt⟩ := Word.fdiv_bounds (n := d * d) (show 0 < 2 * a by omega)
  obtain ⟨secondLe, secondLt⟩ :=
    Word.fdiv_bounds (n := (d * d).fdiv (2 * a) * d) (show 0 < 2 * b by omega)
  exact ⟨_, firstLe, firstLt, secondLe, secondLt⟩

theorem cube_loss (aPos : 1 ≤ a) (bPos : 1 ≤ b) {d : Int} (dPos : 1 ≤ d) :
    4 * a * b * cubeQuotient a b d ≤ d ^ 3 ∧
      d ^ 3 - 4 * a * b * cubeQuotient a b d ≤ 4 * a * b - 2 * a + (2 * a - 1) * d := by
  obtain ⟨q, firstLe, firstLt, secondLe, secondLt⟩ := cubeQuotient_spec aPos bPos d
  generalize cubeQuotient a b d = p at *
  -- the loss of the first division counts `d` times, that of the second one `2a` times
  have split : d ^ 3 - 4 * a * b * p = d * (d * d - q * (2 * a)) + 2 * a * (q * d - p * (2 * b)) := by
    ring
  have firstNonneg : 0 ≤ d * (d * d - q * (2 * a)) := mul_nonneg (by omega) (by omega)
  have secondNonneg : 0 ≤ 2 * a * (q * d - p * (2 * b)) := mul_nonneg (by omega) (by omega)
  have firstLoss : d * (d * d - q * (2 * a)) ≤ d * (2 * a - 1) :=
    mul_le_mul_of_nonneg_left (by linarith) (by omega)
  have secondLoss : 2 * a * (q * d - p * (2 * b)) ≤ 2 * a * (2 * b - 1) :=
    mul_le_mul_of_nonneg_left (by linarith) (by omega)
  constructor
  · linarith
  · linarith

/-- No value of the iteration is more than twice the sum of the reserves. -/
theorem le_two_mul_sum (ampPos : 1 ≤ amp) {d : Int} (sumPos : 0 ≤ a + b)
    (bounded : d * (2 * amp - 1) ≤ (a + b) * (2 * amp)) : d ≤ 2 * (a + b) := by
  by_contra large
  have exceeds : (2 * (a + b) + 1) * (2 * amp - 1) ≤ d * (2 * amp - 1) :=
    mul_le_mul_of_nonneg_right (by omega) (by omega)
  nlinarith

theorem quotient_le_square (aPos : 1 ≤ a) (bPos : 1 ≤ b) {d p : Int}
    (small : d ≤ 2 * (a + b)) (lossNonneg : 4 * a * b * p ≤ d ^ 3) : p ≤ d ^ 2 := by
  have product : a + b ≤ a * b + 1 := by nlinarith
  have productPos : 1 ≤ a * b := by nlinarith
  have atMost : d ^ 2 * d ≤ d ^ 2 * (4 * a * b) :=
    mul_le_mul_of_nonneg_left (by linarith) (by positivity)
  exact le_of_mul_le_mul_left (a := 4 * a * b) (by linarith) (by linarith)

theorem leverage_eq_ok {w : Word} :
    leverage amp = .ok w ↔ (w.val : Int) = 2 * amp ∧ w.val < 2 ^ 64 := by
  simp only [leverage, bind_eq_ok, Word.read_int, Word.ofInt_eq_ok, Word.mul_eq_ok,
    Word.narrowed_eq_ok]
  constructor
  · rintro ⟨read, isRead, double, isDouble, rfl, fits⟩
    exact ⟨by omega, fits⟩
  · rintro ⟨isDouble, fits⟩
    obtain ⟨read, isRead⟩ := Word.exists_val_eq (z := amp) (by omega) (by omega)
    exact ⟨read, isRead, w, by omega, rfl, fits⟩

/-- What every value of the iteration has: it is positive, bounded and not below the integer part of
the exact invariant. -/
structure Approach (a b amp d : Int) : Prop where
  pos : 1 ≤ d
  bounded : d * (2 * amp - 1) ≤ (a + b) * (2 * amp)
  after : residual a b amp (d + 1) < 0

theorem Approach.sum (aPos : 1 ≤ a) (bPos : 1 ≤ b) (ampPos : 1 ≤ amp) :
    Approach a b amp (a + b) := by
  refine ⟨by omega, mul_le_mul_of_nonneg_left (by omega) (by omega), ?_⟩
  -- the geometric mean of the reserves is at most the arithmetic one
  have mean : 4 * a * b * (a + b + 1) ≤ (a + b) ^ 2 * (a + b + 1) :=
    mul_le_mul_of_nonneg_right (by nlinarith [sq_nonneg (a - b)]) (by omega)
  have lever : 0 ≤ 4 * a * b * (2 * amp) := by positivity
  have grow : 0 < (a + b + 1) ^ 2 * (a + b + 1) - (a + b) ^ 2 * (a + b + 1) := by
    nlinarith [mul_pos (show 0 < a + b by omega) (show 0 < a + b + 1 by omega)]
  unfold residual
  linarith

theorem NewtonStep.approach {d p e : Int} (newton : NewtonStep a b amp d p e) (aPos : 1 ≤ a)
    (bPos : 1 ≤ b) (ampPos : 1 ≤ amp) (approach : Approach a b amp d) : Approach a b amp e :=
  ⟨newton.pos aPos bPos ampPos approach.pos approach.bounded,
    newton.bounded aPos bPos ampPos approach.pos approach.bounded,
    newton.residual_neg aPos bPos ampPos approach.pos approach.bounded⟩

/-! ## The words of a step -/

/-- The words that the iteration is given for the reserves. -/
structure ReserveWords (a b : Int) (sum twoA twoB : Word) : Prop where
  isSum : (sum.val : Int) = a + b
  isTwoA : (twoA.val : Int) = 2 * a
  isTwoB : (twoB.val : Int) = 2 * b

theorem InRange.exists_reserveWords (range : InRange a b amp) :
    ∃ sum twoA twoB : Word, ReserveWords a b sum twoA twoB := by
  obtain ⟨aPos, bPos, -, sumFits, aFits, bFits, -⟩ := range
  obtain ⟨sum, isSum⟩ := Word.exists_val_eq (z := a + b) (by omega) (by omega)
  obtain ⟨twoA, isTwoA⟩ := Word.exists_val_eq (z := 2 * a) (by omega) (by omega)
  obtain ⟨twoB, isTwoB⟩ := Word.exists_val_eq (z := 2 * b) (by omega) (by omega)
  exact ⟨sum, twoA, twoB, isSum, isTwoA, isTwoB⟩

theorem ReserveWords.approach_sum {sum twoA twoB : Word} (words : ReserveWords a b sum twoA twoB)
    (range : InRange a b amp) : Approach a b amp sum.val := by
  rw [words.isSum]
  exact .sum range.aPos range.bPos range.ampPos

section Words

variable {sum twoA twoB ann d p : Word} (dPos : 1 ≤ (d.val : Int)) (dLe : (d.val : Int) ≤ 2 ^ 65)

include dPos in
theorem exists_quotient (words : ReserveWords a b sum twoA twoB) (aPos : 1 ≤ a) (bPos : 1 ≤ b)
    (sumFits : a + b < 2 ^ 64) (small : (d.val : Int) ≤ 2 * (a + b)) :
    ∃ square q cross p : Word, (square.val : Int) = d.val * d.val ∧
      (q.val : Int) = (square.val : Int).fdiv twoA.val ∧ (cross.val : Int) = q.val * d.val ∧
      (p.val : Int) = (cross.val : Int).fdiv twoB.val ∧ (p.val : Int) = cubeQuotient a b d.val ∧
      (p.val : Int) ≤ 2 ^ 130 := by
  obtain ⟨-, isTwoA, isTwoB⟩ := words
  have dLe : (d.val : Int) ≤ 2 ^ 65 := by omega
  have dNonneg : 0 ≤ (d.val : Int) := by omega
  obtain ⟨square, isSquare, squareLe⟩ := Word.exists_mul dNonneg dNonneg dLe dLe (by norm_num)
  obtain ⟨q, isQ, qLe⟩ := Word.exists_div (y := twoA.val) (Int.natCast_nonneg square.val)
    (by omega) squareLe (by norm_num)
  obtain ⟨cross, isCross, crossLe⟩ :=
    Word.exists_mul (Int.natCast_nonneg q.val) dNonneg qLe dLe (by norm_num)
  obtain ⟨p, isP, -⟩ := Word.exists_div (y := twoB.val) (Int.natCast_nonneg cross.val)
    (by omega) crossLe (by norm_num)
  have isQuotient : (p.val : Int) = cubeQuotient a b d.val := by
    rw [isP, isCross, isQ, isSquare, isTwoA, isTwoB, cubeQuotient]
  -- the bounds of the words alone would leave `p` too large for the sums below
  obtain ⟨lossNonneg, -⟩ := cube_loss aPos bPos dPos
  have pLe := quotient_le_square aPos bPos small lossNonneg
  rw [← isQuotient] at pLe
  have squared : (d.val : Int) ^ 2 ≤ 2 ^ 130 := by
    rw [sq, ← isSquare]
    exact squareLe.trans_eq (by norm_num)
  exact ⟨square, q, cross, p, isSquare, isQ, isCross, isP, isQuotient, pLe.trans squared⟩

include dLe in
theorem exists_numerator (sumLe : (sum.val : Int) ≤ 2 ^ 64) (annLe : (ann.val : Int) ≤ 2 ^ 64)
    (pLe : (p.val : Int) ≤ 2 ^ 130) :
    ∃ pull twoP inner numerator : Word, (pull.val : Int) = sum.val * ann.val ∧
      (twoP.val : Int) = p.val * 2 ∧ (inner.val : Int) = twoP.val + pull.val ∧
      (numerator.val : Int) = d.val * inner.val := by
  obtain ⟨pull, isPull, pullLe⟩ := Word.exists_mul (Int.natCast_nonneg sum.val)
    (Int.natCast_nonneg ann.val) sumLe annLe (by norm_num)
  obtain ⟨twoP, isTwoP, twoPLe⟩ := Word.exists_mul (y := 2) (Int.natCast_nonneg p.val)
    (by norm_num) pLe le_rfl (by norm_num)
  obtain ⟨inner, isInner, innerLe⟩ := Word.exists_add (Int.natCast_nonneg twoP.val)
    (Int.natCast_nonneg pull.val) twoPLe pullLe (by norm_num)
  obtain ⟨numerator, isNumerator, -⟩ := Word.exists_mul (Int.natCast_nonneg d.val)
    (Int.natCast_nonneg inner.val) dLe innerLe (by norm_num)
  exact ⟨pull, twoP, inner, numerator, isPull, isTwoP, isInner, isNumerator⟩

include dPos dLe in
theorem exists_denominator (annGe : 2 ≤ (ann.val : Int)) (annLe : (ann.val : Int) ≤ 2 ^ 64)
    (pLe : (p.val : Int) ≤ 2 ^ 130) :
    ∃ less lever threeP denominator : Word, (less.val : Int) = ann.val - 1 ∧
      (lever.val : Int) = d.val * less.val ∧ (threeP.val : Int) = p.val * 3 ∧
      (denominator.val : Int) = lever.val + threeP.val ∧ 0 < (denominator.val : Int) := by
  obtain ⟨less, isLess⟩ := Word.exists_val_eq (z := ann.val - 1) (by omega) (by omega)
  obtain ⟨lever, isLever, leverLe⟩ := Word.exists_mul (y := less.val) (Int.natCast_nonneg d.val)
    (by omega) dLe (n := 2 ^ 64) (by omega) (by norm_num)
  obtain ⟨threeP, isThreeP, threePLe⟩ := Word.exists_mul (y := 3) (Int.natCast_nonneg p.val)
    (by norm_num) pLe le_rfl (by norm_num)
  obtain ⟨denominator, isDenominator, -⟩ := Word.exists_add (Int.natCast_nonneg lever.val)
    (Int.natCast_nonneg threeP.val) leverLe threePLe (by norm_num)
  have leverPos : 0 < (d.val : Int) * less.val := mul_pos (by omega) (by omega)
  exact ⟨less, lever, threeP, denominator, isLess, isLever, isThreeP, isDenominator, by omega⟩

end Words

/-- Within range no step of the iteration fails, and it keeps what the values have. -/
theorem exists_newtonStep (range : InRange a b amp) {sum twoA twoB d : Word}
    (words : ReserveWords a b sum twoA twoB) (approach : Approach a b amp d.val) :
    ∃ e : Word, invariantStep amp sum twoA twoB d = .ok e ∧
      NewtonStep a b amp d.val (cubeQuotient a b d.val) e.val ∧ Approach a b amp e.val := by
  obtain ⟨aPos, bPos, ampPos, sumFits, aFits, bFits, ampFits⟩ := range
  have dPos := approach.pos
  have small := le_two_mul_sum ampPos (by omega) approach.bounded
  have dLe : (d.val : Int) ≤ 2 ^ 65 := by omega
  obtain ⟨lossNonneg, lossLe⟩ := cube_loss aPos bPos dPos
  obtain ⟨square, q, cross, p, isSquare, isQ, isCross, isP, isQuotient, pLe⟩ :=
    exists_quotient dPos words aPos bPos sumFits small
  obtain ⟨isSum, isTwoA, isTwoB⟩ := words
  obtain ⟨ann, isAnn⟩ := Word.exists_val_eq (z := 2 * amp) (by omega) (by omega)
  have annLe : (ann.val : Int) ≤ 2 ^ 64 := by omega
  obtain ⟨pull, twoP, inner, numerator, isPull, isTwoP, isInner, isNumerator⟩ :=
    exists_numerator dLe (show (sum.val : Int) ≤ 2 ^ 64 by omega) annLe pLe
  obtain ⟨less, lever, threeP, denominator, isLess, isLever, isThreeP, isDenominator,
    denominatorPos⟩ := exists_denominator dPos dLe (by omega) annLe pLe
  obtain ⟨e, isE, -⟩ := Word.exists_div (Int.natCast_nonneg numerator.val) denominatorPos le_rfl
    (by have := numerator.lt; omega)
  have stepped : invariantStep amp sum twoA twoB d = .ok e := by
    simp only [invariantStep, bind_eq_ok, Word.mul_eq_ok, Word.div_eq_ok, Word.add_eq_ok,
      Word.sub_eq_ok, leverage_eq_ok]
    exact ⟨square, isSquare, q, ⟨by omega, isQ⟩, cross, isCross, p, ⟨by omega, isP⟩, ann,
      ⟨isAnn, by omega⟩, pull, isPull, twoP, isTwoP, inner, isInner, numerator, isNumerator, less,
      isLess, lever, isLever, threeP, isThreeP, denominator, isDenominator, denominatorPos.ne', isE⟩
  obtain ⟨le, lt⟩ := Word.fdiv_bounds (n := numerator.val) denominatorPos
  rw [← isE, isDenominator, isNumerator, isLever, isThreeP, isInner, isLess, isTwoP, isPull, isAnn,
    isSum] at le lt
  have newton : NewtonStep a b amp d.val (cubeQuotient a b d.val) e.val := by
    rw [← isQuotient] at lossNonneg lossLe ⊢
    exact ⟨by omega, by omega, lossNonneg, lossLe, by linarith, by linarith⟩
  exact ⟨e, stepped, newton, newton.approach aPos bPos ampPos approach⟩

/-! ## The iteration -/

theorem invariant_zero (cap : Nat) : (invariant cap (0 : Int) (0 : Int) amp).outcome = .ok 0 := rfl

theorem invariant_eq_ok {cap d : Nat} (some : a + b ≠ 0) :
    (invariant cap a b amp).outcome = .ok d ↔
      ∃ sum twoA twoB : Word, ((sum.val : Int) = a + b ∧ sum.val < 2 ^ 64) ∧
        ((twoA.val : Int) = 2 * a ∧ twoA.val < 2 ^ 64) ∧
        ((twoB.val : Int) = 2 * b ∧ twoB.val < 2 ^ 64) ∧
        ∃ r, settle (invariantStep amp sum twoA twoB) cap sum = .ok r ∧ r.value.val = d := by
  simp only [invariant, Traced.outcome_bind, Traced.outcome_liftM, Traced.outcome_ite, bind_eq_ok,
    Word.read_int, Word.ofInt_eq_ok, Word.add_eq_ok, Word.narrowed_eq_ok, Traced.outcome_pure,
    Traced.outcome_log, ok_bind, ite_self]
  constructor
  · rintro ⟨ra, isA, rb, isB, sum, isSum, _, ⟨rfl, sumFits⟩, ended⟩
    rw [if_neg (by omega)] at ended
    simp only [bind_eq_ok, Word.mul_eq_ok, Word.narrowed_eq_ok, Except.ok.injEq] at ended
    obtain ⟨twoA, isTwoA, _, ⟨rfl, aFits⟩, twoB, isTwoB, _, ⟨rfl, bFits⟩, r, settled, isValue⟩ := ended
    exact ⟨_, _, _, ⟨by omega, sumFits⟩, ⟨by omega, aFits⟩, ⟨by omega, bFits⟩, r, settled, isValue⟩
  · rintro ⟨sum, twoA, twoB, ⟨isSum, sumFits⟩, ⟨isTwoA, aFits⟩, ⟨isTwoB, bFits⟩, r, settled, isValue⟩
    obtain ⟨ra, isA⟩ := Word.exists_val_eq (z := a) (by omega) (by omega)
    obtain ⟨rb, isB⟩ := Word.exists_val_eq (z := b) (by omega) (by omega)
    refine ⟨ra, isA, rb, isB, sum, by omega, sum, ⟨rfl, sumFits⟩, ?_⟩
    rw [if_neg (by omega)]
    simp only [bind_eq_ok, Word.mul_eq_ok, Word.narrowed_eq_ok, Except.ok.injEq]
    exact ⟨twoA, by omega, twoA, ⟨rfl, aFits⟩, twoB, by omega, twoB, ⟨rfl, bFits⟩, r, settled, isValue⟩

theorem ReserveWords.invariant_of_settle {sum twoA twoB : Word}
    (words : ReserveWords a b sum twoA twoB) (range : InRange a b amp) {cap : Nat} {r : Settled}
    (settled : settle (invariantStep amp sum twoA twoB) cap sum = .ok r) :
    (invariant cap a b amp).outcome = .ok r.value.val := by
  obtain ⟨aPos, bPos, -, sumFits, aFits, bFits, -⟩ := range
  obtain ⟨isSum, isTwoA, isTwoB⟩ := words
  rw [invariant_eq_ok (by omega)]
  exact ⟨sum, twoA, twoB, ⟨isSum, by omega⟩, ⟨isTwoA, by omega⟩, ⟨isTwoB, by omega⟩, r, settled, rfl⟩

theorem exists_invariant (range : InRange a b amp) (cap : Nat) :
    ∃ d : Nat, (invariant cap a b amp).outcome = .ok d ∧ Approach a b amp d := by
  obtain ⟨sum, twoA, twoB, words⟩ := range.exists_reserveWords
  have total : ∀ d : Word, Approach a b amp d.val → ∃ e, invariantStep amp sum twoA twoB d = .ok e ∧
      Approach a b amp e.val := by
    intro d approach
    obtain ⟨e, stepped, -, next⟩ := exists_newtonStep range words approach
    exact ⟨e, stepped, next⟩
  obtain ⟨r, settled, approach⟩ := settle_keeps total cap (words.approach_sum range)
  exact ⟨r.value.val, words.invariant_of_settle range settled, approach⟩

theorem inRange_of_invariantStep {sum twoA twoB d e : Word} (words : ReserveWords a b sum twoA twoB)
    (sumFits : sum.val < 2 ^ 64) (aFits : twoA.val < 2 ^ 64) (bFits : twoB.val < 2 ^ 64)
    (stepped : invariantStep amp sum twoA twoB d = .ok e) : InRange a b amp := by
  obtain ⟨isSum, isTwoA, isTwoB⟩ := words
  simp only [invariantStep, bind_eq_ok, Word.mul_eq_ok, Word.div_eq_ok, Word.add_eq_ok,
    Word.sub_eq_ok, leverage_eq_ok] at stepped
  obtain ⟨_, -, _, ⟨aNeZero, -⟩, _, -, _, ⟨bNeZero, -⟩, ann, ⟨isAnn, annFits⟩, _, -, _, -, _, -, _, -,
    less, isLess, -⟩ := stepped
  exact ⟨by omega, by omega, by omega, by omega, by omega, by omega, by omega⟩

theorem nonneg_of_invariant {cap d : Nat} (calculated : (invariant cap a b amp).outcome = .ok d) :
    0 ≤ a ∧ 0 ≤ b := by
  simp only [invariant, Traced.outcome_bind, Traced.outcome_liftM, bind_eq_ok, Word.read_int,
    Word.ofInt_eq_ok] at calculated
  obtain ⟨ra, isA, rb, isB, -⟩ := calculated
  omega

/-- A pool that has an invariant is empty or within range. -/
theorem invariant_spec {cap d : Nat} (capPos : 1 ≤ cap)
    (calculated : (invariant cap a b amp).outcome = .ok d) :
    (a = 0 ∧ b = 0 ∧ d = 0) ∨ (InRange a b amp ∧ Approach a b amp d) := by
  by_cases none : a + b = 0
  · have nonneg := nonneg_of_invariant calculated
    obtain ⟨rfl, rfl⟩ : a = 0 ∧ b = 0 := by omega
    rw [invariant_zero] at calculated
    cases calculated
    exact .inl ⟨rfl, rfl, rfl⟩
  · right
    obtain ⟨cap, rfl⟩ : ∃ n, cap = n + 1 := ⟨cap - 1, by omega⟩
    obtain ⟨sum, twoA, twoB, ⟨isSum, sumFits⟩, ⟨isTwoA, aFits⟩, ⟨isTwoB, bFits⟩, r, settled, -⟩ :=
      (invariant_eq_ok none).mp calculated
    obtain ⟨e, stepped⟩ := first_step_of_settle settled
    have range := inRange_of_invariantStep ⟨isSum, isTwoA, isTwoB⟩ sumFits aFits bFits stepped
    obtain ⟨d', calculated', approach⟩ := exists_invariant range (cap + 1)
    cases calculated.symm.trans calculated'
    exact ⟨range, approach⟩

end PegPool.Curve
