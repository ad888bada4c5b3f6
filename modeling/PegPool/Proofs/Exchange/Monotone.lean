import PegPool.Proofs.Curve.ReserveDomain
import PegPool.Proofs.Exchange.Swap
import PegPool.Proofs.Fees.Share

/-!
# Paying in more

For a fixed invariant the calculated reserve does not grow with the known one
(`otherReserve_anti`), although each of the two may be the number after the integer part of its root:
one unit more of the known reserve raises the reserve equation by at least the other reserve, and it
is missed by one at most.  So the output of the curve does not fall if more is paid in, and neither
does what a swap pays, as a fee takes at most the whole of every further unit
(`more_in_more_out`).
-/

namespace PegPool

theorem Word.fdiv_le_fdiv {m n d e : Int} (nonneg : 0 ≤ n) (le : m ≤ n) (ePos : 0 < e) (less : e ≤ d) :
    m.fdiv d ≤ n.fdiv e := by
  obtain ⟨atMost, -⟩ := Word.fdiv_bounds (n := m) (show 0 < d by omega)
  obtain ⟨-, exceeds⟩ := Word.fdiv_bounds (n := n) ePos
  have quotientNonneg : 0 ≤ n.fdiv e := Int.fdiv_nonneg nonneg ePos.le
  have : (n.fdiv e + 1) * e ≤ (n.fdiv e + 1) * d := mul_le_mul_of_nonneg_left less (by omega)
  have : m.fdiv d < n.fdiv e + 1 := lt_of_mul_lt_mul_right (a := d) (by omega) (by omega)
  omega

namespace Curve

variable {x x' d amp : Int}

theorem reserveConstant_anti (solvable : Solvable x amp) (le : x ≤ x') (dNonneg : 0 ≤ d) :
    reserveConstant x' d amp ≤ reserveConstant x d amp := by
  have xPos := solvable.xPos
  have ampPos := solvable.ampPos
  have square := Word.fdiv_le_fdiv (mul_self_nonneg d) le_rfl (show 0 < 2 * x by omega)
    (show 2 * x ≤ 2 * x' by omega)
  have nonneg : 0 ≤ (d * d).fdiv (2 * x) := Int.fdiv_nonneg (mul_self_nonneg d) (by omega)
  exact Word.fdiv_le_fdiv (mul_nonneg nonneg dNonneg) (mul_le_mul_of_nonneg_right square dNonneg)
    (by omega) le_rfl

/-- One unit more of the known reserve raises the equation by at least the other one. -/
theorem add_le_reserveResidual (solvable : Solvable x amp) (less : x + 1 ≤ x') (dNonneg : 0 ≤ d)
    {t : Int} (tNonneg : 0 ≤ t) : reserveResidual x d amp t + t ≤ reserveResidual x' d amp t := by
  have constant := reserveConstant_anti solvable (show x ≤ x' by omega) dNonneg
  have gap : 1 * t ≤ (x' - x) * t := mul_le_mul_of_nonneg_right (by omega) tNonneg
  unfold reserveResidual reserveSlope
  linarith

theorem reserveConstant_mono (solvable : Solvable x amp) {s t : Int} (sNonneg : 0 ≤ s) (le : s ≤ t) :
    reserveConstant x s amp ≤ reserveConstant x t amp := by
  have xPos := solvable.xPos
  have ampPos := solvable.ampPos
  have square := Word.fdiv_le_fdiv (mul_self_nonneg t) (mul_self_le_mul_self sNonneg le)
    (show 0 < 2 * x by omega) le_rfl
  have nonneg : 0 ≤ (t * t).fdiv (2 * x) := Int.fdiv_nonneg (mul_self_nonneg t) (by omega)
  exact Word.fdiv_le_fdiv (mul_nonneg nonneg (by omega)) (mul_le_mul square le sNonneg nonneg)
    (by omega) le_rfl

theorem reserveResidual_zero_nonpos (solvable : Solvable x amp) (dNonneg : 0 ≤ d) :
    reserveResidual x d amp 0 ≤ 0 := by
  have nonneg := reserveConstant_nonneg solvable dNonneg
  unfold reserveResidual
  omega

/-- The equation of a larger invariant is passed later. -/
theorem reserveResidual_anti (solvable : Solvable x amp) {s t z : Int} (sNonneg : 0 ≤ s) (le : s ≤ t)
    (zNonneg : 0 ≤ z) : reserveResidual x t amp z ≤ reserveResidual x s amp z := by
  have ampPos := solvable.ampPos
  have constant := reserveConstant_mono solvable sNonneg le
  obtain ⟨quotientLe, -⟩ := Word.fdiv_bounds (n := t) (show 0 < 2 * amp by omega)
  obtain ⟨-, quotientLt⟩ := Word.fdiv_bounds (n := s) (show 0 < 2 * amp by omega)
  have slope : t.fdiv (2 * amp) - t ≤ s.fdiv (2 * amp) - s := by
    have steps : (t - s) * 1 ≤ (t - s) * (2 * amp) := mul_le_mul_of_nonneg_left (by omega) (by omega)
    have : t.fdiv (2 * amp) < s.fdiv (2 * amp) + 1 + (t - s) :=
      lt_of_mul_lt_mul_right (a := 2 * amp) (by linarith) (by omega)
    omega
  have scaled := mul_le_mul_of_nonneg_right slope zNonneg
  unfold reserveResidual reserveSlope
  linarith

theorem otherReserve_anti {y y' : Nat} (le : x ≤ x') (dNonneg : 0 ≤ d) (dFits : d < 2 ^ 64)
    (calculated : (otherReserve defaultCap x d amp).outcome = .ok y)
    (calculated' : (otherReserve defaultCap x' d amp).outcome = .ok y') : y' ≤ y := by
  have solvable := solvable_of_otherReserve calculated
  obtain ⟨_, isReserve, after, -⟩ := solvable.exists_reserve dNonneg dFits
  obtain ⟨_, isReserve', -, near⟩ :=
    (solvable_of_otherReserve calculated').exists_reserve dNonneg dFits
  rw [isReserve] at calculated
  rw [isReserve'] at calculated'
  cases calculated
  cases calculated'
  obtain rfl | less := eq_or_lt_of_le le
  · rw [isReserve] at isReserve'
    cases isReserve'
    rfl
  · obtain rfl | yPos := Nat.eq_zero_or_pos y'
    · exact Nat.zero_le _
    · have raised := add_le_reserveResidual solvable less dNonneg (Int.natCast_nonneg y')
      have := lt_of_quadratic (reserveConstant_nonneg solvable dNonneg) (by omega)
        (show reserveResidual x d amp y' ≤ 0 by omega) after
      omega

/-- The slope of the equation falls from one invariant to a larger one, unless that is the next number
and a multiple of twice the coefficient. -/
theorem reserveResidual_add_le (solvable : Solvable x amp) {s t z : Int} (sNonneg : 0 ≤ s)
    (spread : s + 2 ≤ t ∨ (s < t ∧ ¬ 2 * amp ∣ t)) (zNonneg : 0 ≤ z) :
    reserveResidual x t amp z + z ≤ reserveResidual x s amp z := by
  have ampPos := solvable.ampPos
  have constant := reserveConstant_mono solvable sNonneg (show s ≤ t by omega)
  obtain ⟨quotientLe, -⟩ := Word.fdiv_bounds (n := t) (show 0 < 2 * amp by omega)
  obtain ⟨-, quotientLt⟩ := Word.fdiv_bounds (n := s) (show 0 < 2 * amp by omega)
  have slope : t.fdiv (2 * amp) - t + 1 ≤ s.fdiv (2 * amp) - s := by
    by_cases next : t = s + 1
    · have indivisible : ¬ 2 * amp ∣ t := (spread.resolve_left (by omega)).2
      have : t.fdiv (2 * amp) * (2 * amp) ≠ t := fun multiple =>
        indivisible ⟨_, (mul_comm _ _).trans multiple |>.symm⟩
      have : t.fdiv (2 * amp) < s.fdiv (2 * amp) + 1 :=
        lt_of_mul_lt_mul_right (a := 2 * amp) (by omega) (by omega)
      omega
    · have two : s + 2 ≤ t := by omega
      have steps : (t - s - 1) * 2 ≤ (t - s - 1) * (2 * amp) :=
        mul_le_mul_of_nonneg_left (by omega) (by omega)
      have : t.fdiv (2 * amp) < s.fdiv (2 * amp) + (t - s) :=
        lt_of_mul_lt_mul_right (a := 2 * amp) (by linarith) (by omega)
      omega
  have scaled := mul_le_mul_of_nonneg_right slope zNonneg
  unfold reserveResidual reserveSlope
  linarith

/-- With the invariant the calculated reserve does not fall, unless it is the next number and a multiple
of twice the coefficient. -/
theorem otherReserve_mono {s t : Int} {y y' : Nat} (sNonneg : 0 ≤ s) (tFits : t < 2 ^ 64)
    (spread : s = t ∨ s + 2 ≤ t ∨ (s < t ∧ ¬ 2 * amp ∣ t))
    (calculated : (otherReserve defaultCap x s amp).outcome = .ok y)
    (calculated' : (otherReserve defaultCap x t amp).outcome = .ok y') : y ≤ y' := by
  have solvable := solvable_of_otherReserve calculated
  obtain ⟨_, isReserve, -, near⟩ := solvable.exists_reserve sNonneg (show s < 2 ^ 64 by omega)
  obtain ⟨_, isReserve', after, -⟩ := solvable.exists_reserve (show 0 ≤ t by omega) tFits
  rw [isReserve] at calculated
  rw [isReserve'] at calculated'
  cases calculated
  cases calculated'
  obtain rfl | apart := spread
  · rw [isReserve] at isReserve'
    cases isReserve'
    rfl
  · obtain rfl | yPos := Nat.eq_zero_or_pos y
    · exact Nat.zero_le _
    · have lowered := reserveResidual_add_le solvable sNonneg apart (Int.natCast_nonneg y)
      have := lt_of_quadratic (reserveConstant_nonneg solvable (show 0 ≤ t by omega)) (by omega)
        (show reserveResidual x t amp y ≤ 0 by omega) after
      omega

theorem otherReserve_le_succ {s t : Int} {y y' : Nat} (sNonneg : 0 ≤ s) (tFits : t < 2 ^ 64)
    (le : s ≤ t) (calculated : (otherReserve defaultCap x s amp).outcome = .ok y)
    (calculated' : (otherReserve defaultCap x t amp).outcome = .ok y') : y ≤ y' + 1 := by
  have solvable := solvable_of_otherReserve calculated
  obtain ⟨_, isReserve, -, near⟩ := solvable.exists_reserve sNonneg (show s < 2 ^ 64 by omega)
  obtain ⟨_, isReserve', after, -⟩ := solvable.exists_reserve (show 0 ≤ t by omega) tFits
  rw [isReserve] at calculated
  rw [isReserve'] at calculated'
  cases calculated
  cases calculated'
  obtain rfl | yPos := Nat.eq_zero_or_pos y
  · exact Nat.zero_le _
  · have before := quadratic_pred_nonpos (reserveConstant_nonneg solvable sNonneg) (by omega) near
    have lowered := reserveResidual_anti solvable sNonneg le (show 0 ≤ (y : Int) - 1 by omega)
    have := lt_of_quadratic (reserveConstant_nonneg solvable (show 0 ≤ t by omega)) (by omega)
      (lowered.trans before) after
    omega

theorem otherAmount_eq_ok {cap y : Nat} : (otherAmount cap x d amp).outcome = .ok y ↔
    (otherReserve cap x d amp).outcome = .ok y ∧ y < 2 ^ 64 := by
  simp only [otherAmount, Traced.outcome_bind, Traced.outcome_liftM, bind_eq_ok,
    Word.ofInt_eq_ok, Word.narrow_eq_ok]
  constructor
  · rintro ⟨z, solved, w, isW, rfl, fits⟩
    obtain rfl : z = w.val := by omega
    exact ⟨solved, fits⟩
  · rintro ⟨solved, fits⟩
    obtain ⟨w, isW⟩ := Word.exists_val_eq (z := y) (by omega) (by omega)
    exact ⟨y, solved, w, isW, by omega, by omega⟩

/-- A larger known reserve has a reserve beside it if a smaller one has, and not a larger one. -/
theorem exists_otherAmount_le {y : Nat} (le : x ≤ x') (fits : 2 * x' < 2 ^ 64) (dNonneg : 0 ≤ d)
    (dFits : d < 2 ^ 64) (calculated : (otherAmount defaultCap x d amp).outcome = .ok y) :
    ∃ y' : Nat, (otherAmount defaultCap x' d amp).outcome = .ok y' ∧ y' ≤ y := by
  obtain ⟨solved, yFits⟩ := otherAmount_eq_ok.mp calculated
  obtain ⟨xPos, -, ampPos, ampFits⟩ := solvable_of_otherReserve solved
  have solvable' : Solvable x' amp := ⟨by omega, fits, ampPos, ampFits⟩
  obtain ⟨y', isReserve, -⟩ := solvable'.exists_reserve dNonneg dFits
  have solved' : (otherReserve defaultCap x' d amp).outcome = .ok y' := by rw [isReserve]; rfl
  have atMost := otherReserve_anti le dNonneg dFits solved solved'
  exact ⟨y', otherAmount_eq_ok.mpr ⟨solved', by omega⟩, atMost⟩

theorem invariant_fits {cap s : Nat} {a b : Int} (capPos : 1 ≤ cap)
    (calculated : (invariant cap a b amp).outcome = .ok s) : s < 2 ^ 64 := by
  obtain ⟨-, -, rfl⟩ | ⟨range, -⟩ := invariant_spec capPos calculated
  · decide
  · obtain ⟨s', calculated', -, atMost⟩ := range.exists_invariant_le_sum cap
    cases calculated.symm.trans calculated'
    have := range.sumFits
    omega

variable {amountIn more source destination : Int} {cap o : Nat}

theorem output_eq_ok : (output cap amountIn source destination amp).outcome = .ok o ↔
    ∃ d y : Nat, (invariant cap source destination amp).outcome = .ok d ∧
      (0 ≤ source ∧ 0 ≤ amountIn ∧ source + amountIn < 2 ^ 64) ∧
      (otherAmount cap (source + amountIn) d amp).outcome = .ok y ∧
      destination = y + o ∧ destination < 2 ^ 256 := by
  simp only [output, Traced.outcome_bind, Traced.outcome_liftM, bind_eq_ok, Word.read_int,
    Word.ofInt_eq_ok, Word.add_eq_ok, Word.sub_eq_ok, Word.narrow_eq_ok, Traced.outcome_pure,
    Except.ok.injEq]
  constructor
  · rintro ⟨d, invariant, src, isSource, added, isAdded, more, isMore, _, ⟨rfl, fits⟩, y, solved,
      dest, isDestination, out, isOut, rfl⟩
    have isNewSource : (more.val : Int) = source + amountIn := by omega
    have destFits := dest.lt
    rw [isNewSource] at solved
    exact ⟨d, y, invariant, by omega, solved, by omega, by omega⟩
  · rintro ⟨d, y, invariant, ⟨sourceNonneg, inNonneg, fits⟩, solved, isDestination, destFits⟩
    obtain ⟨src, isSource⟩ := Word.exists_val_eq sourceNonneg (by omega)
    obtain ⟨added, isAdded⟩ := Word.exists_val_eq inNonneg (by omega)
    obtain ⟨more, isMore⟩ := Word.exists_val_eq (z := source + amountIn) (by omega) (by omega)
    obtain ⟨dest, isDest⟩ := Word.exists_val_eq (z := destination) (by omega) destFits
    obtain ⟨out, isOut⟩ := Word.exists_val_eq (z := o) (by omega) (by omega)
    rw [← isMore] at solved
    exact ⟨d, invariant, src, isSource, added, isAdded, more, by omega, more.val, ⟨rfl, by omega⟩, y,
      solved, dest, isDest, out, by omega, by omega⟩

/-- Paying in more has an output as well, as long as the new reserve is one that can be solved for,
and not a smaller one. -/
theorem exists_output_ge (le : amountIn ≤ more) (fits : 2 * (source + more) < 2 ^ 64)
    (priced : (output defaultCap amountIn source destination amp).outcome = .ok o) :
    ∃ o' : Nat, (output defaultCap more source destination amp).outcome = .ok o' ∧ o ≤ o' := by
  obtain ⟨d, y, isInvariant, ⟨sourceNonneg, inNonneg, -⟩, solved, isDestination, destFits⟩ :=
    output_eq_ok.mp priced
  have dFits := invariant_fits (by decide) isInvariant
  obtain ⟨y', solved', atMost⟩ := exists_otherAmount_le (show source + amountIn ≤ source + more by omega)
    fits (Int.natCast_nonneg d) (by omega) solved
  refine ⟨o + (y - y'), output_eq_ok.mpr ⟨d, y', isInvariant, by omega, solved', by omega, destFits⟩, ?_⟩
  omega

end Curve

/-- A fee takes at most the whole of what an amount grows by. -/
theorem Rate.sub_share_mono {r : Rate} {amount more : Int} {fee feeMore : Nat} (le : amount ≤ more)
    (charged : r.share amount = .ok fee) (chargedMore : r.share more = .ok feeMore)
    (covered : (feeMore : Int) ≤ more) : amount - fee ≤ more - feeMore := by
  obtain ⟨⟨nonneg, -⟩, -, ⟨positive, -⟩, -, isFee, -⟩ := mulDiv_eq_ok.mp charged
  obtain ⟨-, -, -, -, isFeeMore, -⟩ := mulDiv_eq_ok.mp chargedMore
  obtain ⟨-, feeLt⟩ := Word.fdiv_bounds (n := amount * r.numerator.val) positive
  obtain ⟨feeMoreLe, -⟩ := Word.fdiv_bounds (n := more * r.numerator.val) positive
  rw [← isFee] at feeLt
  rw [← isFeeMore] at feeMoreLe
  by_cases legal : r.numerator.val ≤ r.denominator.val
  · have growth : (more - amount) * r.numerator.val ≤ (more - amount) * r.denominator.val :=
      mul_le_mul_of_nonneg_left (by omega) (by omega)
    have : feeMore - fee - 1 < more - amount :=
      lt_of_mul_lt_mul_right (a := (r.denominator.val : Int)) (by linarith) positive.le
    omega
  · have whole : amount * r.denominator.val ≤ amount * r.numerator.val :=
      mul_le_mul_of_nonneg_left (by omega) nonneg
    have : amount < fee + 1 := lt_of_mul_lt_mul_right (a := (r.denominator.val : Int)) (by omega)
      positive.le
    omega

namespace Exchange

variable {cap : Nat} {fees : Fees} {amp amountIn source destination : Int} {s : SwapAmounts}

theorem tradeFee_of_swap
    (priced : (swap cap fees amp amountIn source destination).outcome = .ok s) :
    fees.trade.share (s.amountSwapped + s.fee : Int) = .ok s.fee := by
  simp only [swap, Traced.outcome_bind, Traced.outcome_liftM, bind_eq_ok, Word.ofInt_eq_ok,
    Word.sub_eq_ok, Traced.outcome_pure, Except.ok.injEq] at priced
  obtain ⟨raw, -, whole, isWhole, dy, isDy, fee, charged, adminFee, -, paid, isPaid, _, -, _, -, _, -, _,
    -, _, -, _, -, rfl⟩ := priced
  dsimp only
  rw [show (paid.val + fee : Int) = dy.val by omega]
  exact charged

/-- If more is paid in, the curve gives an output whenever it gives one for less and the new reserve
is one that can be solved for, and neither the output nor what a swap pays falls.  For a fixed
invariant the reserve beside a larger one is not larger. -/
theorem more_in_more_out (fees : Fees) (amp source destination less more : Int)
    (le : less ≤ more) :
    (∀ o : Nat, (Curve.output Curve.defaultCap less source destination amp).outcome = .ok o →
      2 * (source + more) ≤ 2 ^ 64 - 1 →
      ∃ o' : Nat, (Curve.output Curve.defaultCap more source destination amp).outcome = .ok o' ∧
        o ≤ o') ∧
    (∀ s s' : SwapAmounts,
      (swap Curve.defaultCap fees amp less source destination).outcome = .ok s →
      (swap Curve.defaultCap fees amp more source destination).outcome = .ok s' →
      s.amountSwapped ≤ s'.amountSwapped) ∧
    (∀ (d x x' : Int) (y y' : Nat), 0 ≤ d → d ≤ 2 ^ 64 - 1 → x ≤ x' →
      (Curve.otherAmount Curve.defaultCap x d amp).outcome = .ok y →
      (Curve.otherAmount Curve.defaultCap x' d amp).outcome = .ok y' → y' ≤ y) := by
  refine ⟨?_, ?_, ?_⟩
  · intro o priced fits
    exact Curve.exists_output_ge le (by omega) priced
  · intro s s' swapped swapped'
    have output := output_of_swap swapped
    have output' := output_of_swap swapped'
    obtain ⟨d, y, -, -, solved, -⟩ := Curve.output_eq_ok.mp output'
    have solvable := Curve.solvable_of_otherReserve (Curve.otherAmount_eq_ok.mp solved).1
    obtain ⟨o', priced, atLeast⟩ := Curve.exists_output_ge le solvable.xFits output
    cases priced.symm.trans output'
    have grown := Rate.sub_share_mono (by omega) (tradeFee_of_swap swapped) (tradeFee_of_swap swapped')
      (by omega)
    omega
  · intro d x x' y y' dNonneg dFits larger solved solved'
    exact Curve.otherReserve_anti larger dNonneg (by omega) (Curve.otherAmount_eq_ok.mp solved).1
      (Curve.otherAmount_eq_ok.mp solved').1

/-- Into a pool of 3 and 7. -/
theorem more_in_more_out_of_one_and_eight : (1 : Int) ≤ 8 ∧ ∃ s s',
    (swap Curve.defaultCap .free 1 1 3 7).outcome = .ok s ∧
      (swap Curve.defaultCap .free 1 8 3 7).outcome = .ok s' ∧ s.amountSwapped ≤ s'.amountSwapped :=
  ⟨by decide, ⟨4, 6, 1, 0, 0⟩, ⟨11, 1, 6, 0, 0⟩, rfl, rfl,
    (more_in_more_out .free 1 3 7 1 8 (by decide)).2.1 _ _ rfl rfl⟩

end Exchange

end PegPool
