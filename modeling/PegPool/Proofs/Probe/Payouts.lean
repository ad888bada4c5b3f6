import PegPool.Proofs.Exchange.LargerBurn
import PegPool.Proofs.Probe.Findings

/-!
# Probes that find smaller payouts for larger burns

In a pool whose tokens are the units of its invariant a burn is paid at least as much as a smaller one
if neither of its charges is larger and it burns at least two tokens more.  One token more is enough
unless twice the coefficient divides the invariant that the smaller burn leaves (`payout_grows_iff`).

Both conditions are needed.  The charges are integer parts, and one that steps up can take more than a
further token is worth.  And at such a multiple a further token can cost a unit without any charge.
-/

namespace PegPool.Probe

open Curve (defaultCap)
open Exchange (Paid Pays)

/-- A burn that may be drawn, and a larger one of the same pool, with what both are paid. -/
structure Larger (fees : Fees) (b : Burn) (share : Int) (x x' : Paid) : Prop where
  drawn : Drawn defaultCap fees b
  less : b.share < share
  atMost : share ≤ b.supply
  pays : Pays fees b.amp b.share b.supply b.base b.quote x
  pays' : Pays fees b.amp share b.supply b.base b.quote x'

/-- From the first burn to the second one neither charge rises by more than this. -/
structure RisesAtMost (m n : Nat) (x x' : Paid) : Prop where
  base : x'.baseFee ≤ x.baseFee + m
  quote : x'.quoteFee ≤ x.quoteFee + n

variable {fees : Fees} {b : Burn} {share : Int} {x x' : Paid}

theorem Drawn.left_of_priced (drawn : Drawn defaultCap fees b) {burned : Int} {p : Exchange.Payout}
    {d0 d1 quoteShare quoteMove quoteFee adjustedY : Nat}
    (priced : p.Priced defaultCap fees b.amp burned b.supply b.base b.quote d0 d1 quoteShare quoteMove
      quoteFee adjustedY) : d1 + burned = b.supply := by
  obtain ⟨d, calculated, isSupply⟩ := drawn.isSupply
  cases priced.invariant.symm.trans calculated
  have isShrunk := priced.isShrunk
  rw [isSupply] at isShrunk ⊢
  exact Exchange.shrunk_add_of_supply isShrunk

/-- Where no charge rises, a larger burn lacks at most one unit, and only one of a single token more
can lack it. -/
theorem Larger.dy_le_succ (larger : Larger fees b share x x') (even : RisesAtMost 0 0 x x') :
    x.dy ≤ x'.dy + 1 ∧
      (b.share + 2 ≤ share ∨ ¬ 2 * b.amp ∣ b.supply - b.share → x.dy ≤ x'.dy) := by
  obtain ⟨p, d0, d1, _, _, _, priced, isDy, isBaseFee⟩ := larger.pays.exists_priced
  obtain ⟨p', d0', d1', _, _, _, priced', isDy', isBaseFee'⟩ := larger.pays'.exists_priced
  have left := larger.drawn.left_of_priced priced
  have left' := larger.drawn.left_of_priced priced'
  have less := larger.less
  have baseLe := even.base
  obtain ⟨short, kept⟩ := priced.dy_le_succ priced' (by omega) (by omega) even.quote
  refine ⟨by omega, fun apart => ?_⟩
  have spread : d1' = d1 ∨ d1' + 2 ≤ d1 ∨ ¬ 2 * b.amp ∣ d1 := by
    obtain further | noMultiple := apart
    · exact .inr (.inl (by omega))
    · rw [show b.supply - b.share = d1 by omega] at noMultiple
      exact .inr (.inr noMultiple)
  have := kept spread
  omega

/-- What a larger burn that is paid less owes it to. -/
theorem Larger.rises_or_multiple (larger : Larger fees b share x x') (falls : x'.dy < x.dy) :
    x.baseFee < x'.baseFee ∨ x.quoteFee < x'.quoteFee ∨
      (2 * b.amp ∣ b.supply - b.share ∧ x.dy = x'.dy + 1) := by
  by_cases baseRises : x.baseFee < x'.baseFee
  · exact .inl baseRises
  by_cases quoteRises : x.quoteFee < x'.quoteFee
  · exact .inr (.inl quoteRises)
  obtain ⟨short, kept⟩ := larger.dy_le_succ ⟨by omega, by omega⟩
  refine .inr (.inr ⟨?_, by omega⟩)
  by_contra noMultiple
  have := kept (.inr noMultiple)
  omega

/-! ## Larger burns that are paid less -/

def tradeFee (parts : Fin 101) : Fees :=
  let none : Rate := ⟨.zero, ⟨rateDenominator, rateDenominator_lt⟩⟩
  ⟨none, none, ⟨⟨parts, by have := parts.isLt; omega⟩, ⟨rateDenominator, rateDenominator_lt⟩⟩, none⟩

theorem drawn_of_ratio (parts : Fin 101) (factor divisor : Int)
    (isFactor : 1 ≤ factor ∧ factor ≤ 1000) (isDivisor : 1 ≤ divisor ∧ divisor ≤ 1000)
    (ratio : b.base * factor = b.quote * divisor)
    (legal : (1 ≤ b.base ∧ b.base ≤ maxReserve) ∧ (1 ≤ b.quote ∧ b.quote ≤ maxReserve) ∧
      (1 ≤ b.amp ∧ b.amp ≤ 1000000) ∧ 1 ≤ b.share ∧ 0 ≤ b.supply)
    (calculated : (Curve.invariant defaultCap b.base b.quote b.amp).outcome = .ok b.supply.toNat) :
    Drawn defaultCap (tradeFee parts) b := by
  obtain ⟨⟨basePos, baseLe⟩, ⟨quotePos, quoteLe⟩, ⟨ampPos, ampLe⟩, sharePos, supplyNonneg⟩ := legal
  have isQuote : b.quote = max 1 (min maxReserve ((b.base * factor).fdiv divisor)) := by
    rw [ratio, Int.mul_fdiv_cancel _ (by omega), min_eq_right quoteLe, max_eq_right quotePos]
  exact ⟨basePos, baseLe, ⟨factor, divisor, isFactor, isDivisor, isQuote⟩, ampPos, ampLe,
    ⟨_, calculated, (Int.toNat_of_nonneg supplyNonneg).symm⟩, sharePos,
    ⟨rfl, Nat.lt_succ_iff.mp parts.isLt⟩, ⟨rfl, Nat.zero_le _⟩⟩

/-- 290 of the 865 pool tokens of a pool of 273 and 593.  With a token more the charge on the quote
reserve is one unit. -/
def beforeQuoteCharge : Burn := ⟨1000, 290, 865, 273, 593⟩

theorem larger_beforeQuoteCharge :
    Larger (tradeFee 100) beforeQuoteCharge 291 ⟨271, 0, 0⟩ ⟨270, 0, 1⟩ where
  drawn := drawn_of_ratio _ 593 273 (by decide) (by decide) (by decide) (by decide) (by decide +kernel)
  less := by decide
  atMost := by decide
  pays := ⟨⟨1, by decide +kernel⟩, ⟨⟨1, 180, 0, 271⟩, by decide +kernel, rfl⟩, 865, 575,
    by decide +kernel, by decide +kernel, by decide +kernel⟩
  pays' := ⟨⟨2, by decide +kernel⟩, ⟨⟨1, 180, 0, 270⟩, by decide +kernel, rfl⟩, 865, 574,
    by decide +kernel, by decide +kernel, by decide +kernel⟩

/-- 416 of the 815 pool tokens of a pool of 416 and 399.  With a token more the charge on the base
reserve is one unit. -/
def beforeBaseCharge : Burn := ⟨1000, 416, 815, 416, 399⟩

theorem larger_beforeBaseCharge :
    Larger (tradeFee 100) beforeBaseCharge 417 ⟨411, 0, 1⟩ ⟨410, 1, 1⟩ where
  drawn := drawn_of_ratio _ 399 416 (by decide) (by decide) (by decide) (by decide) (by decide +kernel)
  less := by decide
  atMost := by decide
  pays := ⟨⟨1, by decide +kernel⟩, ⟨⟨4, 199, 0, 411⟩, by decide +kernel, rfl⟩, 815, 399,
    by decide +kernel, by decide +kernel, by decide +kernel⟩
  pays' := ⟨⟨3, by decide +kernel⟩, ⟨⟨3, 200, 1, 410⟩, by decide +kernel, rfl⟩, 815, 398,
    by decide +kernel, by decide +kernel, by decide +kernel⟩

/-- 1222 of the 2348 pool tokens of a pool of 1174 and 1174.  As many units are left as twice the
coefficient. -/
def beforeMultiple : Burn := ⟨563, 1222, 2348, 1174, 1174⟩

/-- The base reserve that keeps 1126 is 4, and the one that keeps 1125 is 5. -/
theorem larger_beforeMultiple : Larger (tradeFee 0) beforeMultiple 1223 ⟨1169, 0, 0⟩ ⟨1168, 0, 0⟩ where
  drawn := drawn_of_ratio _ 1 1 (by decide) (by decide) (by decide) (by decide) (by decide +kernel)
  less := by decide
  atMost := by decide
  pays := ⟨⟨1, by decide +kernel⟩, ⟨⟨4, 559, 0, 1169⟩, by decide +kernel, rfl⟩, 2348, 1126,
    by decide +kernel, by decide +kernel, by decide +kernel⟩
  pays' := ⟨⟨1, by decide +kernel⟩, ⟨⟨5, 557, 0, 1168⟩, by decide +kernel, rfl⟩, 2348, 1125,
    by decide +kernel, by decide +kernel, by decide +kernel⟩

/-! ## What a series tells of -/

theorem larger_of_happened {iterations : Nat} {draws : Draws} {dy dyLess : Int} {b : Burn}
    (happened : .payoutNotMonotone dy dyLess b ∈ (runSeries defaultCap iterations draws).events) :
    ∃ (fees : Fees) (x x' : Paid), Larger fees { b with share := b.share - 1 } b.share x x' ∧
      dyLess = x.dy ∧ dy = x'.dy ∧ dy < dyLess := by
  obtain unsettled | ⟨fees, b', drawn, finding⟩ := found_of_runSeries happened
  · exact unsettled.elim
  cases finding with
  | unsettled unsettled => exact unsettled.elim
  | @cheaper w smaller many paid paidLess falls =>
    obtain ⟨x, pays, isDy⟩ := Exchange.exists_pays paidLess
    obtain ⟨x', pays', isDy'⟩ := Exchange.exists_pays paid
    refine ⟨fees, x, x', ⟨?_, by dsimp only; omega, ?_, pays, pays'⟩, by omega, by omega, by omega⟩
    · exact { drawn with sharePos := by dsimp only; omega }
    · obtain ⟨p, d0, d1, _, _, _, priced, -⟩ := pays'.exists_priced
      have left := drawn.left_of_priced priced
      dsimp only
      omega

/-- A larger burn is paid no less if neither charge rises, as long as it burns two tokens more or twice
the coefficient does not divide what the smaller one leaves.  No rise may be allowed for that, and
without one a single token more is not enough.  What a series tells of smaller payouts is therefore
about a charge that rose, or about one unit less at such a multiple. -/
theorem payout_grows_iff (m n more iterations : Nat) (draws : Draws) :
    ((∀ (fees : Fees) (b : Burn) (share : Int) (x x' : Paid), Larger fees b share x x' →
      RisesAtMost m n x x' → (b.share + 2 ≤ share ∨ ¬ 2 * b.amp ∣ b.supply - b.share) →
        x.dy ≤ x'.dy) ↔ m = 0 ∧ n = 0) ∧
    ((∀ (fees : Fees) (b : Burn) (share : Int) (x x' : Paid), Larger fees b share x x' →
      RisesAtMost 0 0 x x' → b.share + more ≤ share → x.dy ≤ x'.dy) ↔ 2 ≤ more) ∧
    ∀ (dy dyLess : Int) (b : Burn),
      .payoutNotMonotone dy dyLess b ∈ (runSeries defaultCap iterations draws).events →
        ∃ (fees : Fees) (x x' : Paid), Larger fees { b with share := b.share - 1 } b.share x x' ∧
          dyLess = x.dy ∧ dy = x'.dy ∧ dy < dyLess ∧
          (x.baseFee < x'.baseFee ∨ x.quoteFee < x'.quoteFee ∨
            2 * b.amp ∣ b.supply - (b.share - 1) ∧ dyLess = dy + 1) := by
  refine ⟨⟨fun grows => ⟨?_, ?_⟩, ?_⟩, ⟨?_, ?_⟩, ?_⟩
  · by_contra rises
    have := grows _ _ _ _ _ larger_beforeBaseCharge ⟨by dsimp only; omega, by dsimp only; omega⟩
      (.inr (by decide))
    exact absurd this (by decide)
  · by_contra rises
    have := grows _ _ _ _ _ larger_beforeQuoteCharge ⟨by dsimp only; omega, by dsimp only; omega⟩
      (.inr (by decide))
    exact absurd this (by decide)
  · rintro ⟨rfl, rfl⟩ fees b share x x' larger even apart
    exact (larger.dy_le_succ even).2 apart
  · intro grows
    by_contra few
    have := grows _ _ _ _ _ larger_beforeMultiple ⟨by decide, by decide⟩
      (show (1222 : Int) + more ≤ 1223 by omega)
    exact absurd this (by decide)
  · intro two fees b share x x' larger even apart
    exact (larger.dy_le_succ even).2 (.inl (by omega))
  · intro dy dyLess b happened
    obtain ⟨fees, x, x', larger, isLess, isDy, falls⟩ := larger_of_happened happened
    refine ⟨fees, x, x', larger, isLess, isDy, falls, ?_⟩
    obtain baseRises | quoteRises | ⟨multiple, short⟩ := larger.rises_or_multiple (by omega)
    · exact .inl baseRises
    · exact .inr (.inl quoteRises)
    · exact .inr (.inr ⟨multiple, by omega⟩)

/-- A series of one probe that draws a token more than `beforeQuoteCharge` finds that it is paid
less. -/
theorem series_finds_smaller_payout :
    (runSeries defaultCap 1 (.ofList [272, 592, 272, 512, 308, 290, 0, 0, 100, 0])).events =
      [.payoutNotMonotone 270 271 { beforeQuoteCharge with share := 291 }] ∧
    Larger (tradeFee 100) beforeQuoteCharge 291 ⟨271, 0, 0⟩ ⟨270, 0, 1⟩ :=
  ⟨by decide +kernel, larger_beforeQuoteCharge⟩

end PegPool.Probe
