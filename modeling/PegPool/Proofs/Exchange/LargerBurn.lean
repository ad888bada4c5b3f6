import PegPool.Proofs.Exchange.OneAsset

/-!
# Burning more of the same pool tokens

A larger burn leaves a smaller invariant.  Beside the same quote reserve the base reserve that keeps it
is not larger, except where the invariant falls by one from a multiple of twice the coefficient: there
it can be larger by one unit (`Curve.otherAmount_le_succ`).  So a larger burn on which no charge is
larger is paid at least as much, or lacks that unit (`Payout.Priced.dy_le_succ`).
-/

namespace PegPool

namespace Curve

variable {x x' s t amp : Int} {y y' : Nat}

/-- Beside more of the known reserve a smaller invariant is kept by the reserve that keeps the larger
one, or by one unit more. -/
theorem otherAmount_le_succ (le : x ≤ x') (sNonneg : 0 ≤ s) (sLe : s ≤ t) (tFits : t < 2 ^ 64)
    (calculated : (otherAmount defaultCap x t amp).outcome = .ok y)
    (calculated' : (otherAmount defaultCap x' s amp).outcome = .ok y') :
    y' ≤ y + 1 ∧ (s = t ∨ s + 2 ≤ t ∨ (s < t ∧ ¬ 2 * amp ∣ t) → y' ≤ y) := by
  obtain ⟨solved, -⟩ := otherAmount_eq_ok.mp calculated
  obtain ⟨solved', -⟩ := otherAmount_eq_ok.mp calculated'
  obtain ⟨between, isBetween, -⟩ :=
    (solvable_of_otherReserve solved).exists_reserve sNonneg (show s < 2 ^ 64 by omega)
  have middle : (otherReserve defaultCap x s amp).outcome = .ok between := by rw [isBetween]; rfl
  have below := otherReserve_anti le sNonneg (by omega) middle solved'
  have above := otherReserve_le_succ sNonneg tFits sLe middle solved
  refine ⟨by omega, fun spread => ?_⟩
  have := otherReserve_mono sNonneg tFits spread middle solved
  omega

end Curve

namespace Exchange

variable {fees : Fees} {amp burned burned' supply base quote : Int} {p p' : Payout}
  {d0 d1 quoteShare quoteMove quoteFee adjustedY : Nat}
  {d0' d1' quoteShare' quoteMove' quoteFee' adjustedY' : Nat}

structure Paid where
  dy : Nat
  baseFee : Nat
  quoteFee : Nat
deriving DecidableEq, Repr

def quoteCharge (fees : Fees) (quote : Int) (d0 d1 : Nat) : Except Fault Nat := do
  fees.imbalanceFee assetCount (quote - (← keptShare quote d0 d1) : Int)

/-- Burning `burned` of `supply` pool tokens is paid and charged so. -/
structure Pays (fees : Fees) (amp burned supply base quote : Int) (x : Paid) : Prop where
  isPaid : ∃ fee : Nat, (withdrawOne Curve.defaultCap fees amp burned supply base quote).outcome =
    .ok ⟨x.dy, fee⟩
  chargesBase : ∃ p : Payout, (payout Curve.defaultCap fees amp burned supply base quote).outcome =
    .ok p ∧ p.baseFee = x.baseFee
  chargesQuote : ∃ d0 d1 : Nat, (Curve.invariant Curve.defaultCap base quote amp).outcome = .ok d0 ∧
    shrunk burned supply d0 = .ok d1 ∧ quoteCharge fees quote d0 d1 = .ok x.quoteFee

theorem Payout.Priced.quoteCharge (priced : p.Priced Curve.defaultCap fees amp burned supply base quote
    d0 d1 quoteShare quoteMove quoteFee adjustedY) : quoteCharge fees quote d0 d1 = .ok quoteFee := by
  rw [Exchange.quoteCharge, priced.sharesQuote, ok_bind,
    show quote - quoteShare = quoteMove by have := priced.isQuote; omega]
  exact priced.chargesQuote

theorem exists_pays {w : Withdrawal}
    (paid : (withdrawOne Curve.defaultCap fees amp burned supply base quote).outcome = .ok w) :
    ∃ x : Paid, Pays fees amp burned supply base quote x ∧ x.dy = w.dy := by
  obtain ⟨p, d0, d1, quoteShare, quoteMove, quoteFee, adjustedY, priced, -⟩ :=
    exists_priced_of_withdrawOne paid
  have payable := payout_eq_ok.mpr ⟨d0, d1, quoteShare, quoteMove, quoteFee, adjustedY, priced⟩
  exact ⟨⟨w.dy, p.baseFee, quoteFee⟩, ⟨⟨w.fee, paid⟩, ⟨p, payable, rfl⟩,
    d0, d1, priced.invariant, priced.isShrunk, priced.quoteCharge⟩, rfl⟩

theorem Pays.exists_priced {x : Paid} (pays : Pays fees amp burned supply base quote x) :
    ∃ (p : Payout) (d0 d1 quoteShare quoteMove adjustedY : Nat),
      p.Priced Curve.defaultCap fees amp burned supply base quote d0 d1 quoteShare quoteMove x.quoteFee
        adjustedY ∧ p.dy = x.dy ∧ p.baseFee = x.baseFee := by
  obtain ⟨fee, paid⟩ := pays.isPaid
  obtain ⟨p, payable, isBaseFee⟩ := pays.chargesBase
  obtain ⟨d0, d1, isInvariant, isShrunk, isQuoteFee⟩ := pays.chargesQuote
  obtain ⟨d0', d1', quoteShare, quoteMove, quoteFee, adjustedY, priced⟩ := payout_eq_ok.mp payable
  cases isInvariant.symm.trans priced.invariant
  cases isShrunk.symm.trans priced.isShrunk
  cases isQuoteFee.symm.trans priced.quoteCharge
  have same := Except.ok.inj (paid.symm.trans priced.isPaid)
  exact ⟨p, d0, d1, quoteShare, quoteMove, adjustedY, priced, (congrArg Withdrawal.dy same).symm,
    isBaseFee⟩

/-- If no charge is larger, the payout for what leaves a smaller invariant lacks at most one unit. -/
theorem Payout.Priced.dy_le_succ
    (priced : p.Priced Curve.defaultCap fees amp burned supply base quote d0 d1 quoteShare quoteMove
      quoteFee adjustedY)
    (priced' : p'.Priced Curve.defaultCap fees amp burned' supply base quote d0' d1' quoteShare'
      quoteMove' quoteFee' adjustedY')
    (le : d1' ≤ d1) (baseLe : p'.baseFee ≤ p.baseFee) (quoteLe : quoteFee' ≤ quoteFee) :
    p.dy ≤ p'.dy + 1 ∧ (d1' = d1 ∨ d1' + 2 ≤ d1 ∨ ¬ 2 * amp ∣ d1 → p.dy ≤ p'.dy) := by
  have shrinks := shrunk_le priced.isShrunk
  have fits := Curve.invariant_fits (by decide) priced.invariant
  have isBase := priced.isBase
  have isBase' := priced'.isBase
  obtain ⟨short, kept⟩ := Curve.otherAmount_le_succ
    (show quote - quoteFee ≤ quote - quoteFee' by omega) (Int.natCast_nonneg d1')
    (show (d1' : Int) ≤ d1 by omega) (by omega) priced.solvedCharged priced'.solvedCharged
  refine ⟨by omega, fun spread => ?_⟩
  have apart : (d1' : Int) = d1 ∨ (d1' : Int) + 2 ≤ d1 ∨ ((d1' : Int) < d1 ∧ ¬ 2 * amp ∣ d1) := by
    obtain same | further | noMultiple := spread
    · exact .inl (by omega)
    · exact .inr (.inl (by omega))
    · obtain same | less := le.eq_or_lt
      · exact .inl (by omega)
      · exact .inr (.inr ⟨by omega, noMultiple⟩)
  have := kept apart
  omega

end Exchange

end PegPool
