import PegPool.Proofs.Exchange.Swap

/-!
# Swapping there and back

The output of a swap is swapped back at once, against the pool that the swap left.  The way back can
pay more than the way there took (`swap_back_profits`), and a trade fee does not prevent it as long
as it leaves less than two units in the pool.  With two units it never happens
(`PricedSwap.no_profit`), so two is the exact bound (`no_profit_iff_two_le`).

After a profit both swaps would have found the same invariant: the fee keeps the pool from falling
below it in the middle, and the profit from rising above it at the end.  But two units of the fee
carry one of the pools to the next total.  Which one depends on the reserves.
-/

namespace PegPool.Exchange

open Curve (InRange Approach residual)

variable {cap : Nat} {fees : Fees} {amp amountIn source destination : Int}
  {there back : SwapAmounts} {d y d' y' : Nat}

/-- Two units of the fee carry the pool in the middle of the trip to the next total, unless its
destination reserve is much the larger one. -/
theorem PricedSwap.middle_reaches_next
    (way : PricedSwap cap fees amp amountIn source destination there d y) (capPos : 1 ≤ cap)
    (kept : there.adminFee + 2 ≤ there.fee) (balanced : (y : Int) + 3 ≤ 4 * there.newSource) :
    0 ≤ residual there.newDestination there.newSource amp (d + 1) := by
  obtain ⟨⟨-, -, ampPos, -⟩, approach⟩ := way.spec capPos
  obtain ⟨⟨newSourcePos, -⟩, above⟩ := Curve.otherAmount_spec capPos way.solved
  have newDestination := way.isNewDestination
  have next := Curve.residual_succ_nonneg_of_le newSourcePos approach.pos ampPos (by omega) above
    (by omega)
  have atMost := Curve.le_add_of_reserve newSourcePos approach.pos ampPos (by omega) above
  have grown := Curve.residual_mono_right newSourcePos (by omega) ampPos
    (show (y : Int) + 1 + 2 ≤ there.newDestination by omega) (t := d + 1) (by omega) (by omega)
  rw [Curve.residual_comm]
  exact next.trans grown

section Profit

variable (way : PricedSwap cap fees amp amountIn source destination there d y)
  (wayBack : PricedSwap cap fees amp there.amountSwapped there.newDestination there.newSource back
    d' y')
  (capPos : 1 ≤ cap)
include way wayBack capPos

/-- The way back finds an invariant that is not below the one that the way there found. -/
theorem PricedSwap.invariant_le (kept : there.adminFee + 1 ≤ there.fee) : d ≤ d' := by
  obtain ⟨-, approach⟩ := way.spec capPos
  obtain ⟨⟨newDestinationPos, newSourcePos, ampPos, -⟩, approach'⟩ := wayBack.spec capPos
  have newDestination := way.isNewDestination
  have held := way.residual_nonneg capPos (show (y : Int) + 2 ≤ there.newDestination by omega)
  rw [Curve.residual_comm] at held
  have := Curve.le_of_residual newDestinationPos newSourcePos ampPos (by omega) held approach'.after
  omega

/-- With a profit the pool ends with less than it began with, so at most at its invariant. -/
theorem PricedSwap.invariant_ge (profit : y' + 2 ≤ source) : d' ≤ d := by
  obtain ⟨⟨sourcePos, destinationPos, ampPos, -⟩, approach⟩ := way.spec capPos
  obtain ⟨-, approach'⟩ := wayBack.spec capPos
  obtain ⟨⟨endPos, -⟩, above⟩ := Curve.otherAmount_spec capPos wayBack.solved
  have atMost := Curve.le_add_of_reserve endPos approach'.pos ampPos (by omega) above
  have held := wayBack.residual_nonneg capPos profit
  have newDestination := way.isNewDestination
  have total := way.isDestination
  have ended := wayBack.isNewSource
  rw [Curve.residual_comm] at held
  -- neither reserve is larger at the end than at the beginning
  have grown := Curve.residual_mono_right sourcePos endPos ampPos
    (show (back.newSource : Int) ≤ destination by omega) (t := d') (by omega) (by omega)
  have := Curve.le_of_residual sourcePos destinationPos ampPos (by omega) (held.trans grown)
    approach.after
  omega

theorem PricedSwap.start_reaches_next (profit : y' + 2 ≤ source)
    (skewed : 4 * ((y' : Int) + 1) + 5 ≤ back.newSource) :
    0 ≤ residual source destination amp (d' + 1) := by
  obtain ⟨⟨sourcePos, -, ampPos, -⟩, -⟩ := way.spec capPos
  obtain ⟨-, approach⟩ := wayBack.spec capPos
  obtain ⟨⟨endPos, -⟩, above⟩ := Curve.otherAmount_spec capPos wayBack.solved
  have newDestination := way.isNewDestination
  have total := way.isDestination
  have ended := wayBack.isNewSource
  have next := Curve.residual_succ_nonneg_of_ge approach.pos ampPos (show 1 ≤ (y' : Int) + 1 by omega)
    skewed above
  have atMost := Curve.le_add_of_reserve endPos approach.pos ampPos (by omega) above
  have grown := Curve.residual_mono_right endPos (by omega) ampPos
    (show (y' : Int) + 1 + 1 ≤ source by omega) (t := d' + 1) (by omega) (by omega)
  rw [Curve.residual_comm _ source] at grown
  have grown' := Curve.residual_mono_right sourcePos endPos ampPos
    (show (back.newSource : Int) ≤ destination by omega) (t := d' + 1) (by omega) (by omega)
  exact (next.trans grown).trans grown'

/-- With two units of the fee in the pool there is no profit. -/
theorem PricedSwap.no_profit (amountPos : 1 ≤ amountIn)
    (kept : there.adminFee + 2 ≤ there.fee) : (back.amountSwapped : Int) ≤ amountIn := by
  obtain ⟨-, approach⟩ := way.spec capPos
  obtain ⟨-, approach'⟩ := wayBack.spec capPos
  have newSource := way.isNewSource
  have newDestination := way.isNewDestination
  have ended := wayBack.isNewSource
  have paid := wayBack.isDestination
  by_contra profit
  have less : (y' : Int) + 2 ≤ source := by omega
  obtain rfl : d' = d :=
    le_antisymm (way.invariant_ge wayBack capPos less) (way.invariant_le wayBack capPos (by omega))
  -- a pool of the next total contradicts the invariant that a swap found in it
  by_cases balanced : (y : Int) + 3 ≤ 4 * there.newSource
  · have next := way.middle_reaches_next capPos kept balanced
    have := approach'.after
    omega
  · have next := way.start_reaches_next wayBack capPos less (by omega)
    have := approach.after
    omega

end Profit

/-- A schedule with a trade fee of one part in 79 and nothing else. -/
def oneIn79 : Fees :=
  { Fees.free with trade := ⟨.one, ⟨79, by decide⟩⟩ }

theorem swap_there_with_fee :
    (swap Curve.defaultCap oneIn79 1 71 3217 3957).outcome = .ok ⟨3288, 3879, 78, 0, 1⟩ := rfl

theorem swap_back_with_fee :
    (swap Curve.defaultCap oneIn79 1 78 3879 3288).outcome = .ok ⟨3957, 3216, 72, 0, 0⟩ := rfl

/-- No round trip that leaves some units of its first fee in the pool profits exactly if those are at
least two units. -/
theorem no_profit_iff_two_le (units : Nat) :
    (∀ (fees : Fees) (amp amountIn source destination : Int) (there back : SwapAmounts),
      1 ≤ amp → amp ≤ 1000000 → 1 ≤ amountIn →
      (swap Curve.defaultCap fees amp amountIn source destination).outcome = .ok there →
      (swap Curve.defaultCap fees amp there.amountSwapped there.newDestination
        there.newSource).outcome = .ok back →
      there.adminFee + units ≤ there.fee → (back.amountSwapped : Int) ≤ amountIn) ↔ 2 ≤ units := by
  constructor
  · intro never
    by_contra few
    have kept : 0 + units ≤ 1 := by omega
    have profit := never oneIn79 1 71 3217 3957 _ _ (by decide) (by decide) (by decide)
      swap_there_with_fee swap_back_with_fee kept
    exact absurd profit (by decide)
  · intro two fees amp amountIn source destination there back _ _ amountPos swapped swappedBack kept
    obtain ⟨d, y, way⟩ := exists_pricedSwap swapped
    obtain ⟨d', y', wayBack⟩ := exists_pricedSwap swappedBack
    exact way.no_profit wayBack (by decide) amountPos (by omega)

/-- Eight units into a pool of 3 and 7 without a fee come back as nine. -/
theorem swap_back_profits : ∃ there back,
    (swap Curve.defaultCap .free 1 8 3 7).outcome = .ok there ∧
      (swap Curve.defaultCap .free 1 there.amountSwapped there.newDestination
        there.newSource).outcome = .ok back ∧ ¬ (back.amountSwapped : Int) ≤ 8 :=
  ⟨⟨11, 1, 6, 0, 0⟩, ⟨7, 2, 9, 0, 0⟩, rfl, rfl, by decide⟩

end PegPool.Exchange
