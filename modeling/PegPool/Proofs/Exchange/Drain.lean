import PegPool.Proofs.Exchange.Guarded
import PegPool.Proofs.Exchange.OneAsset

/-!
# Burning every pool token for one asset

Without pool tokens no invariant is left, and beside any quote reserve no base reserve is needed for it
(`Curve.otherAmount_zero_eq_ok`).  Both reserves are then worth nothing of what is left: the base
reserve is where it should be, and all of the quote reserve is out of balance and charged.  What that
charge leaves of the quote reserve does not matter, as long as it leaves something.  So all of the
base reserve is paid but for the unit that is withheld, and that unit is the fee
(`drain_leaves_one`).
-/

namespace PegPool

namespace Curve

variable {x amp : Int} {y : Nat}

theorem otherReserve_zero (solvable : Solvable x amp) :
    otherReserve defaultCap x (0 : Int) amp = Traced.ok 0 := by
  obtain ⟨y, calculated, -, near⟩ := solvable.exists_reserve le_rfl (by norm_num)
  have constant : reserveConstant x 0 amp = 0 := by simp [reserveConstant]
  have slope : reserveSlope x 0 amp = x := by simp [reserveSlope]
  have isZero : y = 0 := by
    by_contra nonzero
    have square : 1 * 1 ≤ (y : Int) * y := mul_le_mul (by omega) (by omega) (by omega) (by omega)
    have linear : 1 * 1 ≤ x * y := mul_le_mul solvable.xPos (by omega) (by omega)
      (by have := solvable.xPos; omega)
    rw [reserveResidual, constant, slope, sub_zero, sub_zero] at near
    omega
  rw [calculated, isZero]

theorem otherAmount_zero_eq_ok : (otherAmount defaultCap x (0 : Int) amp).outcome = .ok y ↔
    Solvable x amp ∧ y = 0 := by
  rw [otherAmount_eq_ok]
  constructor
  · rintro ⟨calculated, -⟩
    have solvable := solvable_of_otherReserve calculated
    rw [otherReserve_zero solvable] at calculated
    exact ⟨solvable, (Except.ok.inj calculated).symm⟩
  · rintro ⟨solvable, rfl⟩
    rw [otherReserve_zero solvable]
    exact ⟨rfl, by decide⟩

theorem InRange.solvable {a b : Int} (range : InRange a b amp) : Solvable b amp :=
  ⟨range.bPos, range.bFits, range.ampPos, range.ampFits⟩

end Curve

namespace Fees

variable {fees : Fees} {n : Nat}

/-- The fee on no imbalance is zero, where there is one on another imbalance. -/
theorem imbalanceFee_zero {amount : Int} (charged : fees.imbalanceFee assetCount amount = .ok n) :
    fees.imbalanceFee assetCount (0 : Int) = .ok 0 := by
  unfold imbalanceFee at charged ⊢
  rw [if_neg (by decide), bind_eq_ok] at charged ⊢
  obtain ⟨scaled, isScaled, share⟩ := charged
  obtain ⟨-, numeratorFits, denominatorFits, -⟩ := mulDiv_eq_ok.mp share
  refine ⟨scaled, isScaled,
    mulDiv_eq_ok.mpr ⟨by decide, numeratorFits, denominatorFits, ?_, ?_, by decide⟩⟩
  · rw [zero_mul]
    decide
  · rw [zero_mul, Int.zero_fdiv]
    rfl

/-- The charge on all of the quote reserve leaves something of it. -/
def LeavesSome (fees : Fees) (quote : Int) : Prop :=
  ∃ fee : Nat, fees.imbalanceFee assetCount quote = .ok fee ∧ (fee : Int) < quote

end Fees

namespace Exchange

variable {fees : Fees} {cap : Nat} {amp burned supply base quote : Int}

/-! ## Nothing left of the invariant -/

theorem shrunk_all {d0 : Nat} (supplyPos : 1 ≤ supply) (supplyFits : supply < 2 ^ 64)
    (dFits : d0 < 2 ^ 64) : shrunk supply supply d0 = .ok 0 := by
  have product : supply * d0 ≤ 2 ^ 64 * 2 ^ 64 := mul_le_mul (by omega) (by omega) (by omega) (by omega)
  have productNonneg : 0 ≤ supply * d0 := mul_nonneg (by omega) (by omega)
  obtain ⟨tokens, isTokens⟩ := Word.exists_val_eq (z := supply) (by omega) (by omega)
  obtain ⟨whole, isWhole⟩ := Word.exists_val_eq (z := supply * d0) productNonneg (by omega)
  obtain ⟨d, isD⟩ := Word.exists_val_eq (z := d0) (by omega) (by omega)
  simp only [shrunk, bind_eq_ok, Word.ofInt_eq_ok, Word.mul_eq_ok, Word.div_eq_ok, Word.sub_eq_ok,
    pure_eq_ok]
  refine ⟨tokens, isTokens, whole, by rw [isWhole, isTokens], d, ⟨by omega, ?_⟩, d, isD, .zero, ?_, rfl⟩
  · rw [isWhole, isD, Int.mul_fdiv_cancel_left _ (by omega)]
  · rw [sub_self]
    rfl

theorem keptShare_zero {reserve : Int} {d0 : Nat} (nonneg : 0 ≤ reserve) (fits : reserve < 2 ^ 64)
    (dPos : 1 ≤ d0) : keptShare reserve d0 0 = .ok 0 := by
  obtain ⟨word, isWord⟩ := Word.exists_val_eq (z := reserve) nonneg (by omega)
  simp only [keptShare, bind_eq_ok, Word.ofInt_eq_ok, Word.mul_eq_ok, Word.div_eq_ok,
    Word.narrow_eq_ok]
  refine ⟨word, isWord, .zero, (mul_zero _).symm, .zero, ⟨by omega, ?_⟩, rfl, by decide⟩
  exact (Int.zero_fdiv _).symm

/-! ## Draining the base reserve -/

theorem priced_drain (range : Curve.InRange base quote amp) (supplyPos : 1 ≤ supply)
    (supplyFits : supply < 2 ^ 64) {fee : Nat} (charged : fees.imbalanceFee assetCount quote = .ok fee)
    (leaves : (fee : Int) < quote) : ∃ d0 : Nat,
      Payout.Priced ⟨0, 0, 0, (base - 1).toNat⟩ Curve.defaultCap fees amp supply supply base quote
        d0 0 0 quote.toNat fee 0 := by
  obtain ⟨d0, invariant, approach, -⟩ := range.exists_invariant_le_sum Curve.defaultCap
  have solvable := range.solvable
  obtain ⟨basePos, quotePos, ampPos, sumFits, baseFits, quoteFits, ampFits⟩ := range
  have dFits := Curve.invariant_fits (by decide) invariant
  have dPos := approach.pos
  have solvableCharged : Curve.Solvable (quote - fee) amp := ⟨by omega, by omega, ampPos, ampFits⟩
  have isQuote : ((quote.toNat : Nat) : Int) = quote := Int.toNat_of_nonneg (by omega)
  exact ⟨d0, {
    invariant
    isShrunk := shrunk_all supplyPos supplyFits dFits
    solved := Curve.otherAmount_zero_eq_ok.mpr ⟨solvable, rfl⟩
    sharesBase := keptShare_zero (by omega) (by omega) (by omega)
    sharesQuote := keptShare_zero (by omega) (by omega) (by omega)
    isQuote := by omega
    chargesBase := Fees.imbalanceFee_zero charged
    chargesQuote := by rw [isQuote]; exact charged
    coversQuote := leaves.le
    solvedCharged := Curve.otherAmount_zero_eq_ok.mpr ⟨solvableCharged, rfl⟩
    isBase := by dsimp only; omega
    baseFits := by omega
    quoteFits := by omega }⟩

theorem leavesSome_of_drain (range : Curve.InRange base quote amp) (supplyPos : 1 ≤ supply)
    (supplyFits : supply < 2 ^ 64) {w : Withdrawal}
    (paid : (withdrawOne Curve.defaultCap fees amp supply supply base quote).outcome = .ok w) :
    fees.LeavesSome quote := by
  obtain ⟨p, d0, d1, quoteShare, quoteMove, quoteFee, adjustedY, priced, -⟩ :=
    exists_priced_of_withdrawOne paid
  obtain ⟨d, invariant, approach, -⟩ := range.exists_invariant_le_sum Curve.defaultCap
  obtain rfl : d = d0 := Except.ok.inj (invariant.symm.trans priced.invariant)
  have dFits := Curve.invariant_fits (by decide) invariant
  have dPos := approach.pos
  have quotePos := range.bPos
  have quoteFits := range.bFits
  obtain rfl : 0 = d1 :=
    Except.ok.inj ((shrunk_all supplyPos supplyFits dFits).symm.trans priced.isShrunk)
  obtain rfl : 0 = quoteShare := Except.ok.inj
    ((keptShare_zero (by omega) (by omega) (by omega)).symm.trans priced.sharesQuote)
  have isQuote := priced.isQuote
  have charged := priced.chargesQuote
  rw [show (quoteMove : Int) = quote by omega] at charged
  obtain ⟨⟨left, -⟩, -⟩ := Curve.otherAmount_zero_eq_ok.mp priced.solvedCharged
  exact ⟨quoteFee, charged, by omega⟩

/-- Burning every pool token for one asset pays all of its reserve but one unit, and that unit is the
fee, if the charge on the whole other reserve exists and leaves something of it.  Otherwise there is a
fault, and it is caught. -/
theorem drain_leaves_one (fees : Fees) (amp supply base quote : Int)
    (range : Curve.InRange base quote amp) (supplyPos : 1 ≤ supply) (supplyFits : supply ≤ 2 ^ 64 - 1) :
    (fees.LeavesSome quote ∧
      (withdrawOne Curve.defaultCap fees amp supply supply base quote).outcome =
        .ok ⟨(base - 1).toNat, 1⟩) ∨
    (¬ fees.LeavesSome quote ∧ ∃ fault : Fault,
      (withdrawOne Curve.defaultCap fees amp supply supply base quote).outcome = .error fault ∧
        fault.isCaught = true) := by
  by_cases leavesSome : fees.LeavesSome quote
  · obtain ⟨fee, charged, leaves⟩ := id leavesSome
    obtain ⟨d0, priced⟩ := priced_drain range supplyPos (by omega) charged leaves
    exact .inl ⟨leavesSome, priced.isPaid⟩
  · obtain ⟨basePos, quotePos, ampPos, sumFits, baseFits, quoteFits, ampFits⟩ := id range
    refine .inr ⟨leavesSome, (withdrawOne_caught Curve.defaultCap fees (Text.isWritable_of_lt (by omega))
      (Text.isWritable_of_lt (by omega)) (Text.isWritable_of_lt (by omega))
      (Text.isWritable_of_lt (by omega))).exists_fault ?_⟩
    intro w paid
    exact leavesSome (leavesSome_of_drain range supplyPos (by omega) paid)

def tenthOfTrade : Fees :=
  { Fees.free with trade := ⟨.nearest 10, .nearest 100⟩ }

def twiceTheTrade : Fees :=
  { Fees.free with trade := ⟨.nearest 2, .one⟩ }

/-- At a trade fee of a tenth, 100 of the 2000 beside a reserve of 1000 are charged, and 999 are paid.
At a fee of twice the amount all of the 2000 is charged, and the same burn fails. -/
theorem drain_of_tenth_and_twice :
    Curve.InRange 1000 2000 100 ∧ 1 ≤ (3000 : Int) ∧ (3000 : Int) ≤ 2 ^ 64 - 1 ∧
    (withdrawOne Curve.defaultCap tenthOfTrade 100 3000 3000 1000 2000).outcome = .ok ⟨999, 1⟩ ∧
    ∃ fault : Fault,
      (withdrawOne Curve.defaultCap twiceTheTrade 100 3000 3000 1000 2000).outcome = .error fault ∧
        fault.isCaught = true := by
  have range : Curve.InRange 1000 2000 100 := by constructor <;> decide
  refine ⟨range, by decide, by decide, ?_, ?_⟩
  · obtain ⟨-, paid⟩ | ⟨leavesNone, -⟩ :=
      drain_leaves_one tenthOfTrade 100 3000 1000 2000 range (by decide) (by decide)
    · exact paid
    · exact absurd ⟨100, rfl, by decide⟩ leavesNone
  · obtain ⟨⟨fee, charged, leaves⟩, -⟩ | ⟨-, failed⟩ :=
      drain_leaves_one twiceTheTrade 100 3000 1000 2000 range (by decide) (by decide)
    · cases charged.symm.trans (rfl : twiceTheTrade.imbalanceFee assetCount (2000 : Int) = .ok 2000)
      exact absurd leaves (by decide)
    · exact failed

end Exchange

end PegPool
