import PegPool.Curve.Reserve
import PegPool.Fees

/-!
# Amounts of the curve operations

What a swap pays, what a deposit mints and what a withdrawal in one asset pays, for given reserves
and a given coefficient.  Every function fails as a whole if one of its steps does.
-/

namespace PegPool.Exchange

structure SwapAmounts where
  /-- The source reserve after the swap. -/
  newSource : Nat
  /-- The destination reserve after the user and the administrator are paid. -/
  newDestination : Nat
  amountSwapped : Nat
  /-- The administrator's share of the fee; it leaves the pool. -/
  adminFee : Nat
  /-- The trade fee; what the administrator does not get of it stays in the pool. -/
  fee : Nat
deriving DecidableEq, Repr

/-- Prices a swap.  One unit of the curve's output is withheld against rounding, then the trade fee
is taken. -/
def swap (cap : Nat) (fees : Fees) (amp : Int) (amountIn source destination : Int) :
    Traced Fault SwapAmounts := do
  let raw ← Curve.output cap amountIn source destination amp
  let dy ← (← Word.ofInt raw).sub 1
  let fee ← fees.tradeFee dy
  let adminFee ← fees.adminTradeFee fee
  let paid ← dy.sub fee
  let newDestination ← (← (← Word.ofInt destination).sub paid).sub adminFee
  let newSource ← (← (← Word.ofInt source).add amountIn).narrow
  return {
    newSource, newDestination := newDestination.val, amountSwapped := paid.val, adminFee, fee }

/-- A reserve after a deposit, less the fee on how far the deposit moves it from `d1 · old / d0`,
its share of the invariant after the deposit. -/
def chargeImbalance (fees : Fees) (d0 d1 : Nat) (old : Int) (new : Nat) : Except Fault Nat := do
  let ideal ← (← (← (← Word.ofInt d1).mul old).div d0).narrow
  let difference ← (← Word.ofInt ideal).dist new
  let fee ← fees.imbalanceFee assetCount difference
  return (← (← Word.ofInt new).sub fee).val

/-- The pool tokens minted for a deposit of both assets.  In the ratio of the reserves it mints the
exact share; otherwise both reserves are charged for their imbalance and the growth of the invariant
that remains counts. -/
def mintForDeposit (cap : Nat) (fees : Fees) (amp : Int)
    (depositA depositB reserveA reserveB : Int) (supply : Operand) : Traced Fault Nat := do
  let d0 ← Curve.invariant cap reserveA reserveB amp
  let newA ← (← (← Word.ofInt reserveA).add depositA).narrow
  let newB ← (← (← Word.ofInt reserveB).add depositB).narrow
  let d1 ← Curve.invariant cap newA newB amp
  if d1 ≤ d0 then throw .noGrowth
  let crossA ← (← Word.ofInt depositA).mul reserveB
  let crossB ← (← Word.ofInt depositB).mul reserveA
  if crossA.val = crossB.val then
    (← (← (← Word.read supply).mul depositA).div reserveA).narrow
  else
    let chargedA ← chargeImbalance fees d0 d1 reserveA newA
    let chargedB ← chargeImbalance fees d0 d1 reserveB newB
    let d2 ← Curve.invariant cap chargedA chargedB amp
    let whole ← Word.read supply
    let growth ← (← Word.ofInt d2).sub d0
    (← (← whole.mul growth).div d0).narrow

/-- What a withdrawal in one asset pays before the withdraw fee. -/
structure Withdrawal where
  dy : Nat
  /-- What the trade fee and rounding keep from it. -/
  fee : Nat
deriving DecidableEq, Repr

/-- Prices burning `burned` pool tokens for the base asset alone.  The invariant shrinks to `d1` by
the burned share.  Taking all of that from one asset unbalances both reserves, so both are charged
the trade fee on how far they end from their share of `d1`, and the base reserve is solved again
against the charged quote reserve. -/
def withdrawOne (cap : Nat) (fees : Fees) (amp : Int) (burned supply base quote : Int) :
    Traced Fault Withdrawal := do
  let d0 ← Curve.invariant cap base quote amp
  let cut ← (← (← Word.ofInt burned).mul d0).div supply
  let d1 := (← (← Word.ofInt d0).sub cut).val
  let newY ← Curve.otherAmount cap quote d1 amp
  let baseShare ← (← (← (← Word.ofInt base).mul d1).div d0).narrow
  let baseMove ← (← Word.ofInt baseShare).sub newY
  let quoteShare ← (← (← (← Word.ofInt quote).mul d1).div d0).narrow
  let quoteMove ← (← Word.ofInt quote).sub quoteShare
  let baseFee ← fees.imbalanceFee assetCount baseMove
  let quoteFee ← fees.imbalanceFee assetCount quoteMove
  let chargedBase ← (← Word.ofInt base).sub baseFee
  let chargedQuote ← (← Word.ofInt quote).sub quoteFee
  let adjustedY ← Curve.otherAmount cap chargedQuote d1 amp
  let dy ← (← chargedBase.sub adjustedY).sub 1
  let dy0 ← (← Word.ofInt base).sub newY
  return ⟨dy.val, (← dy0.sub dy).val⟩

/-! ## Proportional withdrawal -/

/-- What a withdrawal in both assets moves of one of them. -/
structure ShareAmounts where
  amount : Nat
  /-- The trade and the withdraw fee together. -/
  fee : Nat
  /-- The administrator's share of both fees; it leaves the pool. -/
  adminFee : Nat
deriving DecidableEq, Repr

/-- What burning `burned` of `supply` pool tokens pays of a reserve.  The trade fee is charged on
half of the share, the withdraw fee on what remains. -/
def withdrawShare (fees : Fees) (burned supply reserve : Int) : Except Fault ShareAmounts := do
  let share ← mulDiv reserve burned supply
  let imbalance ← mulDiv share (assetCount - 1 : Nat) assetCount
  let tradeFee ← fees.imbalanceFee assetCount imbalance
  let afterTrade ← (← Word.ofInt share).sub tradeFee
  let withdrawFee ← fees.withdrawFee afterTrade
  let adminTrade ← fees.adminTradeFee tradeFee
  let adminWithdraw ← fees.adminWithdrawFee withdrawFee
  let adminFee ← (← (← Word.ofInt adminTrade).add adminWithdraw).narrow
  let amount ← afterTrade.sub withdrawFee
  let fee ← (← (← Word.ofInt tradeFee).add withdrawFee).narrow
  return ⟨amount.val, fee, adminFee⟩

/-- What burning `burned` of `supply` pool tokens pays of both reserves. -/
def withdrawBoth (fees : Fees) (burned supply reserveA reserveB : Int) :
    Except Fault (ShareAmounts × ShareAmounts) := do
  let a ← withdrawShare fees burned supply reserveA
  let b ← withdrawShare fees burned supply reserveB
  return (a, b)

end PegPool.Exchange
