import PegPool.Exchange
import PegPool.Proofs.Fees.Share

/-!
# Deposits and withdrawals

A deposit only adds to the reserves (`nonneg_of_mintForDeposit`).  A withdrawal pays the user and the
administrator out of a reserve.  In both assets amount and fee are the share of the pool tokens that
are burned (`withdrawShare_spec`).  In one asset the reserve is left with what the curve
keeps, the imbalance fee and the unit that is withheld against rounding, of which the administrator
gets a share again (`withdrawOne_spec`).
-/

namespace PegPool

variable {fees : Fees} {n : Nat}

/-- The fee on an imbalance needs a trade rate. -/
theorem Fees.denominator_pos_of_imbalanceFee {assets amount : Int}
    (charged : fees.imbalanceFee assets amount = .ok n) : 0 < fees.trade.denominator.val := by
  unfold imbalanceFee at charged
  split at charged
  · simp only [bind_eq_ok, throw_ne_ok, false_and, exists_false] at charged
  · simp only [bind_eq_ok] at charged
    obtain ⟨_, -, share⟩ := charged
    obtain ⟨-, -, ⟨positive, -⟩, -⟩ := mulDiv_eq_ok.mp share
    omega

theorem Fees.imbalanceFee_of_le_one (legal : fees.trade.AtMostOne)
    (positive : 0 < fees.trade.denominator.val) (amount : Int) (nonneg : 0 ≤ amount)
    (one : amount ≤ 1) : fees.imbalanceFee assetCount amount = .ok 0 := by
  have numeratorFits := fees.trade.numerator.lt
  have denominatorFits := fees.trade.denominator.lt
  have atMost : fees.trade.numerator.val ≤ fees.trade.denominator.val := legal
  have scaledNonneg : 0 ≤ ((fees.trade.numerator.val : Int) * 2).fdiv 4 :=
    Int.fdiv_nonneg (by omega) (by decide)
  obtain ⟨scaledLe, -⟩ :=
    Word.fdiv_bounds (n := fees.trade.numerator.val * 2) (show (0 : Int) < 4 by decide)
  obtain ⟨scaled, isScaled⟩ := Int.eq_ofNat_of_zero_le scaledNonneg
  rw [isScaled] at scaledLe
  have few : amount * scaled ≤ 1 * scaled := mul_le_mul_of_nonneg_right one (by omega)
  have product : 0 ≤ amount * scaled := mul_nonneg nonneg (by omega)
  have none : (amount * scaled).fdiv fees.trade.denominator.val = 0 := by
    rw [Int.fdiv_eq_ediv_of_nonneg _ (by omega)]
    exact Int.ediv_eq_zero_of_lt product (by omega)
  simp only [imbalanceFee]
  rw [if_neg (by decide), bind_eq_ok]
  refine ⟨scaled, mulDiv_eq_ok.mpr ⟨by omega, by decide, by decide, ?_, isScaled.symm, by omega⟩,
    mulDiv_eq_ok.mpr ⟨by omega, by omega, by omega, by omega, none.symm, by decide⟩⟩
  show (fees.trade.numerator.val : Int) * 2 < 2 ^ 256
  omega

namespace Exchange

variable {cap : Nat} {amp burned supply base quote reserve : Int}

theorem nonneg_of_mintForDeposit {depositA depositB reserveA reserveB : Int}
    (priced : (mintForDeposit cap fees amp depositA depositB reserveA reserveB supply).outcome =
      .ok n) : 0 ≤ depositA ∧ 0 ≤ depositB := by
  simp only [mintForDeposit, Traced.outcome_bind, Traced.outcome_ite, Traced.outcome_liftM,
    Traced.outcome_throw, error_bind, bind_eq_ok] at priced
  obtain ⟨d0, -, _, -, _, -, newA, -, _, -, _, -, newB, -, d1, -, priced⟩ := priced
  split at priced
  · cases priced
  · simp only [bind_eq_ok, Word.ofInt_eq_ok] at priced
    obtain ⟨a, isA, _, -, b, isB, -⟩ := priced
    omega

/-- The user's amount and the fee are the share of the burned tokens, and the administrator gets shares
of the two parts of the fee. -/
theorem withdrawShare_spec {s : ShareAmounts}
    (priced : withdrawShare fees burned supply reserve = .ok s) :
    mulDiv reserve burned supply = .ok (s.amount + s.fee) ∧
      ∃ tradeFee withdrawFee adminTrade adminWithdraw : Nat, s.fee = tradeFee + withdrawFee ∧
        s.adminFee = adminTrade + adminWithdraw ∧ fees.adminTradeFee tradeFee = .ok adminTrade ∧
        fees.adminWithdrawFee withdrawFee = .ok adminWithdraw := by
  simp only [withdrawShare, bind_eq_ok, Word.ofInt_eq_ok, Word.add_eq_ok, Word.sub_eq_ok,
    Word.narrow_eq_ok, pure_eq_ok] at priced
  obtain ⟨share, isShare, imbalance, -, tradeFee, -, whole, isWhole, afterTrade, isAfterTrade,
    withdrawFee, -, adminTrade, chargedTrade, adminWithdraw, chargedWithdraw, first, isFirst, both,
    isBoth, _, ⟨rfl, -⟩, amount, isAmount, tradeFee', isTradeFee, sum, isSum, _, ⟨rfl, -⟩, rfl⟩ := priced
  dsimp only
  obtain rfl : share = amount.val + sum.val := by omega
  exact ⟨isShare, tradeFee, withdrawFee, adminTrade, adminWithdraw, by omega, by omega, chargedTrade,
    chargedWithdraw⟩

theorem withdrawShare_fits {s : ShareAmounts} (priced : withdrawShare fees burned supply reserve = .ok s) :
    s.amount < 2 ^ 64 ∧ s.adminFee < 2 ^ 65 := by
  obtain ⟨share, tradeFee, withdrawFee, adminTrade, adminWithdraw, -, isAdminFee, chargedTrade,
    chargedWithdraw⟩ := withdrawShare_spec priced
  obtain ⟨-, -, -, -, -, shareFits⟩ := mulDiv_eq_ok.mp share
  obtain ⟨-, -, -, -, -, tradeFits⟩ := mulDiv_eq_ok.mp chargedTrade
  obtain ⟨-, -, -, -, -, withdrawFits⟩ := mulDiv_eq_ok.mp chargedWithdraw
  omega

/-- An administrator whose rates are at most one gets at most the fee. -/
theorem withdrawShare_adminFee_le {s : ShareAmounts} (admin : fees.AdminAtMostOne)
    (priced : withdrawShare fees burned supply reserve = .ok s) : s.adminFee ≤ s.fee := by
  obtain ⟨-, tradeFee, withdrawFee, adminTrade, adminWithdraw, isFee, isAdminFee, chargedTrade,
    chargedWithdraw⟩ := withdrawShare_spec priced
  have tradeLe := Rate.share_le admin.trade chargedTrade
  have withdrawLe := Rate.share_le admin.withdraw chargedWithdraw
  omega

/-- A withdrawal in one asset leaves one unit, the reserve for the charged quote reserve and the
imbalance fee.  Its fee is how much that is more than the reserve for the uncharged one. -/
theorem withdrawOne_spec {w : Withdrawal}
    (priced : (withdrawOne cap fees amp burned supply base quote).outcome = .ok w) :
    0 < fees.trade.denominator.val ∧ ∃ adjustedY baseFee newY : Nat,
      base = w.dy + (1 + adjustedY + baseFee) ∧ base = w.dy + (w.fee + newY) := by
  simp only [withdrawOne, Traced.outcome_bind, Traced.outcome_liftM, bind_eq_ok, Word.ofInt_eq_ok,
    Word.mul_eq_ok, Word.div_eq_ok, Word.sub_eq_ok, Word.narrow_eq_ok, Traced.outcome_pure,
    Except.ok.injEq] at priced
  obtain ⟨d0, -, _, -, _, -, cut, -, _, -, d1, -, newY, -, priced⟩ := priced
  obtain ⟨_, -, _, -, _, -, _, -, _, -, baseMove, -, _, -, _, -, _, -, _, -, _, -, quoteMove, -, priced⟩ :=
    priced
  obtain ⟨baseFee, charged, quoteFee, -, whole, isWhole, chargedBase, isChargedBase, _, -, _, -,
    adjustedY, -, left, isLeft, dy, isDy, whole', isWhole', dy0, isDy0, fee, isFee, rfl⟩ := priced
  refine ⟨Fees.denominator_pos_of_imbalanceFee charged, adjustedY, baseFee, newY, ?_, ?_⟩
  · dsimp only
    omega
  · dsimp only
    omega

theorem otherAmount_of_ones :
    (Curve.otherAmount Curve.defaultCap (1 : Int) (1 : Int) (1 : Int)).outcome = .ok 0 := rfl

/-- Half of the pool tokens of a pool of one unit each is not worth a unit.  The withheld unit is the
fee. -/
theorem withdrawOne_of_ones (legal : fees.trade.AtMostOne)
    (positive : 0 < fees.trade.denominator.val) :
    (withdrawOne Curve.defaultCap fees 1 1 2 1 1).outcome = .ok ⟨0, 1⟩ := by
  have free := Fees.imbalanceFee_of_le_one legal positive
  simp only [withdrawOne, Traced.outcome_bind, Traced.outcome_liftM, bind_eq_ok, Word.ofInt_eq_ok,
    Word.mul_eq_ok, Word.div_eq_ok, Word.sub_eq_ok, Word.narrow_eq_ok, Traced.outcome_pure,
    Except.ok.injEq]
  let none : Word := .zero
  let one : Word := ⟨1, by decide⟩
  let two : Word := ⟨2, by decide⟩
  -- the invariant is two and shrinks to one, for which no base reserve is needed
  refine ⟨2, rfl, one, rfl, two, rfl, one, ⟨by decide, rfl⟩, two, rfl, one, rfl, 0,
    otherAmount_of_ones, ?_⟩
  refine ⟨one, rfl, one, rfl, none, ⟨by decide, rfl⟩, 0, ⟨rfl, by decide⟩, none, rfl, none, rfl, one, rfl,
    one, rfl, none, ⟨by decide, rfl⟩, 0, ⟨rfl, by decide⟩, one, rfl, one, rfl, ?_⟩
  exact ⟨0, free 0 (by decide) (by decide), 0, free 1 (by decide) (by decide), one, rfl, one, rfl, one,
    rfl, one, rfl, 0, otherAmount_of_ones, one, rfl, none, rfl, one, rfl, one, rfl, one, rfl, rfl⟩

end Exchange

end PegPool
