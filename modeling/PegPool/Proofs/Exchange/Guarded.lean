import PegPool.Proofs.Exchange.Caught
import PegPool.Proofs.Exchange.Monotone
import PegPool.Proofs.Guarded

/-!
# Where the calculations catch their faults

Each calculation of the pool is given here a second time, step by step the same, with the parts
marked in which faults are caught.  Some steps are outside every guard.  None of these ever meets a
fault, and so every calculation on brief integers answers, with the value that the pool works with or
without one (`calculations_answer`).
-/

namespace PegPool

/-- For an invariant the second reserve has been read. -/
theorem Curve.exists_word_of_invariant {cap : Nat} {a b amp : Int} {d : Nat}
    (solved : (invariant cap a b amp).outcome = .ok d) : ∃ w : Word, (w.val : Int) = b := by
  simp only [invariant, Word.read_int, Traced.outcome_bind, Traced.outcome_liftM, bind_eq_ok,
    Word.ofInt_eq_ok] at solved
  obtain ⟨_, -, word, isB, -⟩ := solved
  exact ⟨word, isB⟩

namespace Guarded

open Text (Brief isWritable isWritable_nat isWritable_word)

/-! ## Fees -/

section Fees

def mulDiv (value numerator denominator : Int) : Guarded Nat :=
  guarding (liftM (PegPool.mulDiv value numerator denominator))

def share (r : Rate) (amount : Int) : Guarded Nat :=
  mulDiv amount r.numerator.val r.denominator.val

def imbalanceFee (fees : Fees) (assets amount : Int) : Guarded Nat := do
  if assets < 2 then failure
  let scaled ← mulDiv fees.trade.numerator.val assets ((assets - 1) * 4)
  mulDiv amount scaled fees.trade.denominator.val

theorem mulDiv_eq (value numerator denominator : Int) : mulDiv value numerator denominator =
    ofOutcome (PegPool.mulDiv value numerator denominator) :=
  rfl

theorem share_eq (r : Rate) (amount : Int) : share r amount = ofOutcome (r.share amount) :=
  mulDiv_eq _ _ _

theorem imbalanceFee_eq (fees : Fees) (assets amount : Int) :
    imbalanceFee fees assets amount = ofOutcome (fees.imbalanceFee assets amount) := by
  have tooFew : ofOutcome (throw Fault.fewAssets : Except Fault PUnit) = failure := ofOutcome_throw rfl
  simp [imbalanceFee, Fees.imbalanceFee, mulDiv_eq, tooFew]

end Fees

/-! ## The curve -/

section Curve

variable (cap : Nat)

def invariant (a b amp : Int) : Guarded Nat :=
  guarding (liftM (Curve.invariant cap a b amp).outcome)

def otherReserve (x d amp : Int) : Guarded Nat :=
  guarding (liftM (Curve.otherReserve cap x d amp).outcome)

def otherAmount (x d amp : Int) : Guarded Nat := do
  let y ← otherReserve cap x d amp
  guarding do (← Word.ofInt y).narrow

/-- What `y` leaves of `x`, or no answer if that is negative.  No guard is around reading `x`. -/
def leftOf (x : Int) (y : Nat) : Guarded Nat := do
  let left ← OptionT.mk (do (← Word.ofInt x).sub? y)
  return left.val

def output (amountIn source destination amp : Int) : Guarded Nat := do
  let d ← invariant cap source destination amp
  let newSource ← guarding do (← (← Word.ofInt source).add (← Word.ofInt amountIn)).narrow
  let y ← otherAmount cap newSource d amp
  -- the destination has been read for the invariant, under its guard
  leftOf destination y

theorem invariant_eq (a b amp : Int) :
    invariant cap a b amp = ofOutcome (Curve.invariant cap a b amp).outcome :=
  rfl

theorem otherReserve_eq (x d amp : Int) :
    otherReserve cap x d amp = ofOutcome (Curve.otherReserve cap x d amp).outcome :=
  rfl

theorem otherAmount_eq (x d amp : Int) :
    otherAmount cap x d amp = ofOutcome (Curve.otherAmount cap x d amp).outcome := by
  simp [otherAmount, Curve.otherAmount, otherReserve_eq]

/-- Reading a number without a guard does no harm if a word holds it. -/
theorem leftOf_eq (x : Word) {y : Nat} (fits : y < 2 ^ 64) :
    leftOf x.val y = ofOutcome (do return (← (← Word.ofInt x.val).sub y).val) := by
  have isWord : Word.ofInt x.val = .ok x := Word.ofInt_eq_ok.mpr rfl
  by_cases negative : (x.val : Int) - y < 0
  · have nothing : x.sub? y = .ok none := if_pos negative
    have underflow : x.sub y = .error (.underflow x.val y) := if_pos negative
    have caught := (x.sub_caught (.nat (by omega))).faults _ underflow
    simp only [leftOf, isWord, ok_bind, nothing, underflow, error_bind]
    rw [ofOutcome_of_caught caught]
    rfl
  · obtain ⟨left, isLeft⟩ := Word.exists_val_eq (z := (x.val : Int) - y) (by omega)
      (by have := x.lt; omega)
    have something : x.sub? y = .ok (some left) := by
      rw [Word.sub?, if_neg negative, Word.ofInt_eq_ok.mpr isLeft]
      rfl
    have isDifference : x.sub y = .ok left := Word.sub_eq_ok.mpr isLeft
    simp only [leftOf, isWord, ok_bind, something, isDifference]
    rfl

theorem output_eq (amountIn source destination amp : Int) :
    output cap amountIn source destination amp =
      ofOutcome (Curve.output cap amountIn source destination amp).outcome := by
  simp only [output, Curve.output, invariant_eq, Traced.outcome_bind, ofOutcome_bind]
  -- the unguarded step at the end needs that the invariant came to a value
  apply ofOutcome_bind_congr
  intro d solved
  obtain ⟨word, rfl⟩ := Curve.exists_word_of_invariant solved
  simp only [otherAmount_eq, guarding_bind, guarding_lift, Traced.outcome_liftM, bind_assoc]
  refine bind_congr fun _ => bind_congr fun _ => bind_congr fun _ => bind_congr fun newSource =>
    ofOutcome_bind_congr fun y solvedY => ?_
  rw [leftOf_eq word (Curve.otherAmount_eq_ok.mp solvedY).2]
  simp

end Curve

/-! ## Amounts -/

section Amounts

variable (cap : Nat) (fees : Fees) (amp : Int)

def swap (amountIn source destination : Int) : Guarded Exchange.SwapAmounts := do
  let raw ← output cap amountIn source destination amp
  guarding do
    let dy ← (← Word.ofInt raw).sub 1
    let fee ← share fees.trade dy.val
    let adminFee ← share fees.adminTrade fee
    let paid ← dy.sub fee
    let newDestination ← (← (← Word.ofInt destination).sub paid).sub adminFee
    let newSource ← (← (← Word.ofInt source).add amountIn).narrow
    return {
      newSource, newDestination := newDestination.val, amountSwapped := paid.val, adminFee, fee }

def chargeImbalance (d0 d1 : Nat) (old : Int) (new : Nat) : Guarded Nat := do
  let ideal ← (← (← (← Word.ofInt d1).mul old).div d0).narrow
  let difference ← (← Word.ofInt ideal).dist new
  let fee ← imbalanceFee fees assetCount difference.val
  return (← (← Word.ofInt new).sub fee).val

def mintForDeposit (depositA depositB reserveA reserveB supply : Int) : Guarded Nat := do
  let d0 ← invariant cap reserveA reserveB amp
  let (newA, newB) ← guarding do
    let newA ← (← (← Word.ofInt reserveA).add depositA).narrow
    let newB ← (← (← Word.ofInt reserveB).add depositB).narrow
    return (newA, newB)
  let d1 ← invariant cap newA newB amp
  if d1 ≤ d0 then failure
  guarding do
    let crossA ← (← Word.ofInt depositA).mul reserveB
    let crossB ← (← Word.ofInt depositB).mul reserveA
    if crossA.val = crossB.val then
      (← (← (← Word.ofInt supply).mul depositA).div reserveA).narrow
    else
      let chargedA ← chargeImbalance fees d0 d1 reserveA newA
      let chargedB ← chargeImbalance fees d0 d1 reserveB newB
      let d2 ← invariant cap chargedA chargedB amp
      let whole ← Word.ofInt supply
      let growth ← (← Word.ofInt d2).sub d0
      (← (← whole.mul growth).div d0).narrow

def withdrawOne (burned supply base quote : Int) : Guarded Exchange.Withdrawal := do
  let d0 ← invariant cap base quote amp
  guarding do
    let cut ← (← (← Word.ofInt burned).mul d0).div supply
    let d1 := (← (← Word.ofInt d0).sub cut).val
    let newY ← otherAmount cap quote d1 amp
    let baseShare ← (← (← (← Word.ofInt base).mul d1).div d0).narrow
    let baseMove ← (← Word.ofInt baseShare).sub newY
    let quoteShare ← (← (← (← Word.ofInt quote).mul d1).div d0).narrow
    let quoteMove ← (← Word.ofInt quote).sub quoteShare
    -- both fees are charged before either is looked at
    let (baseFee, quoteFee) ← both
      (imbalanceFee fees assetCount baseMove.val) (imbalanceFee fees assetCount quoteMove.val)
    let chargedBase ← (← Word.ofInt base).sub baseFee
    let chargedQuote ← (← Word.ofInt quote).sub quoteFee
    let adjustedY ← otherAmount cap chargedQuote.val d1 amp
    let dy ← (← chargedBase.sub adjustedY).sub 1
    let dy0 ← (← Word.ofInt base).sub newY
    return ⟨dy.val, (← dy0.sub dy).val⟩

def withdrawShare (burned supply reserve : Int) : Guarded Exchange.ShareAmounts := do
  let whole ← mulDiv reserve burned supply
  let imbalance ← mulDiv whole (assetCount - 1 : Nat) assetCount
  let tradeFee ← imbalanceFee fees assetCount imbalance
  guarding do
    let afterTrade ← (← Word.ofInt whole).sub tradeFee
    let withdrawFee ← share fees.withdraw afterTrade.val
    let (adminTrade, adminWithdraw) ← both
      (share fees.adminTrade tradeFee) (share fees.adminWithdraw withdrawFee)
    let adminFee ← (← (← Word.ofInt adminTrade).add adminWithdraw).narrow
    let amount ← afterTrade.sub withdrawFee
    let fee ← (← (← Word.ofInt tradeFee).add withdrawFee).narrow
    return ⟨amount.val, fee, adminFee⟩

def withdrawBoth (burned supply reserveA reserveB : Int) :
    Guarded (Exchange.ShareAmounts × Exchange.ShareAmounts) :=
  both (withdrawShare fees burned supply reserveA) (withdrawShare fees burned supply reserveB)

theorem swap_eq (amountIn source destination : Int) :
    swap cap fees amp amountIn source destination =
      ofOutcome (Exchange.swap cap fees amp amountIn source destination).outcome := by
  simp [swap, Exchange.swap, Fees.tradeFee, Fees.adminTradeFee, output_eq, share_eq]

theorem guarding_chargeImbalance (d0 d1 : Nat) (old : Int) (new : Nat) :
    guarding (chargeImbalance fees d0 d1 old new) =
      ofOutcome (Exchange.chargeImbalance fees d0 d1 old new) := by
  simp [chargeImbalance, Exchange.chargeImbalance, imbalanceFee_eq]

theorem mintForDeposit_eq (depositA depositB reserveA reserveB supply : Int) :
    mintForDeposit cap fees amp depositA depositB reserveA reserveB supply = ofOutcome
      (Exchange.mintForDeposit cap fees amp depositA depositB reserveA reserveB supply).outcome := by
  have noGrowth : ofOutcome (.error .noGrowth : Except Fault Nat) = failure := ofOutcome_of_caught rfl
  simp [mintForDeposit, Exchange.mintForDeposit, invariant_eq, guarding_chargeImbalance,
    Traced.outcome_ite, error_bind, noGrowth]

theorem withdrawOne_eq (burned supply base quote : Int) :
    withdrawOne cap fees amp burned supply base quote =
      ofOutcome (Exchange.withdrawOne cap fees amp burned supply base quote).outcome := by
  have caught (move : Word) : Caught (fees.imbalanceFee assetCount move.val) fun n => n < 2 ^ 64 :=
    fees.imbalanceFee_caught (.of_lt (by decide)) (isWritable_word move)
  have bothFees (baseMove quoteMove : Word) :=
    both_ofOutcome (fees.imbalanceFee assetCount baseMove.val) (caught quoteMove)
  simp [withdrawOne, Exchange.withdrawOne, invariant_eq, otherAmount_eq, imbalanceFee_eq, bothFees]

theorem withdrawShare_eq (burned supply reserve : Int) :
    withdrawShare fees burned supply reserve =
      ofOutcome (Exchange.withdrawShare fees burned supply reserve) := by
  simp only [withdrawShare, Exchange.withdrawShare, mulDiv_eq, imbalanceFee_eq, share_eq, guarding_bind,
    guarding_lift, guarding_ofOutcome, ofOutcome_bind]
  refine bind_congr fun _ => bind_congr fun _ => bind_congr fun tradeFee => bind_congr fun _ =>
    bind_congr fun _ => ofOutcome_bind_congr fun withdrawFee charged => ?_
  have fits := (mulDiv_eq_ok.mp charged).2.2.2.2.2
  have caught : Caught (fees.adminWithdraw.share withdrawFee) fun n => n < 2 ^ 64 :=
    fees.adminWithdraw.share_caught (isWritable_nat (by omega))
  simp [both_ofOutcome _ caught, Fees.adminTradeFee, Fees.adminWithdrawFee]

theorem withdrawBoth_eq {burned supply reserveB : Int} (burnedWritable : isWritable burned = true)
    (supplyWritable : isWritable supply = true) (bWritable : isWritable reserveB = true) (reserveA : Int) :
    withdrawBoth fees burned supply reserveA reserveB =
      ofOutcome (Exchange.withdrawBoth fees burned supply reserveA reserveB) := by
  have caught := Exchange.withdrawShare_caught fees burnedWritable supplyWritable bWritable
  simp [withdrawBoth, Exchange.withdrawBoth, withdrawShare_eq, both_ofOutcome _ caught]

end Amounts

/-- No calculation on brief integers is broken off. -/
structure CalculationsAnswer (cap : Nat) (fees : Fees) : Prop where
  mulDiv : ∀ value numerator denominator : Int, Brief value → Brief numerator → Brief denominator →
    Answers (mulDiv value numerator denominator) (PegPool.mulDiv value numerator denominator)
  share : ∀ (r : Rate) (amount : Int), Brief amount → Answers (share r amount) (r.share amount)
  imbalanceFee : ∀ assets amount : Int, Brief assets → Brief amount →
    Answers (imbalanceFee fees assets amount) (fees.imbalanceFee assets amount)
  invariant : ∀ a b amp : Int, Brief a → Brief b → Brief amp →
    Answers (invariant cap a b amp) (Curve.invariant cap a b amp).outcome
  otherReserve : ∀ x d amp : Int, Brief x → Brief d → Brief amp →
    Answers (otherReserve cap x d amp) (Curve.otherReserve cap x d amp).outcome
  otherAmount : ∀ x d amp : Int, Brief x → Brief d → Brief amp →
    Answers (otherAmount cap x d amp) (Curve.otherAmount cap x d amp).outcome
  output : ∀ amountIn source destination amp : Int, Brief amountIn → Brief source →
    Brief destination → Brief amp → Answers (output cap amountIn source destination amp)
      (Curve.output cap amountIn source destination amp).outcome
  swap : ∀ amp amountIn source destination : Int, Brief amp → Brief amountIn → Brief source →
    Brief destination → Answers (swap cap fees amp amountIn source destination)
      (Exchange.swap cap fees amp amountIn source destination).outcome
  mintForDeposit : ∀ amp depositA depositB reserveA reserveB supply : Int, Brief amp →
    Brief depositA → Brief depositB → Brief reserveA → Brief reserveB → Brief supply →
    Answers (mintForDeposit cap fees amp depositA depositB reserveA reserveB supply)
      (Exchange.mintForDeposit cap fees amp depositA depositB reserveA reserveB supply).outcome
  withdrawOne : ∀ amp burned supply base quote : Int, Brief amp → Brief burned → Brief supply →
    Brief base → Brief quote → Answers (withdrawOne cap fees amp burned supply base quote)
      (Exchange.withdrawOne cap fees amp burned supply base quote).outcome
  withdrawShare : ∀ burned supply reserve : Int, Brief burned → Brief supply → Brief reserve →
    Answers (withdrawShare fees burned supply reserve)
      (Exchange.withdrawShare fees burned supply reserve)
  withdrawBoth : ∀ burned supply reserveA reserveB : Int, Brief burned → Brief supply →
    Brief reserveA → Brief reserveB → Answers (withdrawBoth fees burned supply reserveA reserveB)
      (Exchange.withdrawBoth fees burned supply reserveA reserveB)

theorem calculations_answer (cap : Nat) (fees : Fees) : CalculationsAnswer cap fees where
  mulDiv _ _ _ value numerator denominator := answers_of_caught (mulDiv_eq _ _ _)
    (mulDiv_caught value.isWritable numerator.isWritable denominator.isWritable)
  share r _ amount := answers_of_caught (share_eq _ _) (r.share_caught amount.isWritable)
  imbalanceFee _ _ assets amount := answers_of_caught (imbalanceFee_eq _ _ _)
    (fees.imbalanceFee_caught assets amount.isWritable)
  invariant _ _ _ a b amp := answers_of_caught (invariant_eq _ _ _ _)
    (Curve.invariant_caught cap a.isWritable b.isWritable amp.isWritable)
  otherReserve _ _ _ x d amp := answers_of_caught (otherReserve_eq _ _ _ _)
    (Curve.otherReserve_caught cap x.isWritable d.isWritable amp.isWritable)
  otherAmount _ _ _ x d amp := answers_of_caught (otherAmount_eq _ _ _ _)
    (Curve.otherAmount_caught cap x.isWritable d.isWritable amp.isWritable)
  output _ _ _ _ amountIn source destination amp := answers_of_caught (output_eq _ _ _ _ _)
    (Curve.output_caught cap amountIn.isWritable source.isWritable destination.isWritable amp.isWritable)
  swap _ _ _ _ amp amountIn source destination := answers_of_caught (swap_eq _ _ _ _ _ _)
    (Exchange.swap_caught cap fees amp.isWritable amountIn source.isWritable destination.isWritable)
  mintForDeposit _ _ _ _ _ _ amp depositA depositB reserveA reserveB supply :=
    answers_of_caught (mintForDeposit_eq _ _ _ _ _ _ _ _)
      (Exchange.mintForDeposit_caught cap fees amp.isWritable reserveA reserveB
        (reserveA.isWritable_add depositA) (reserveB.isWritable_add depositB) supply.isWritable)
  withdrawOne _ _ _ _ _ amp burned _ base quote := answers_of_caught (withdrawOne_eq _ _ _ _ _ _ _)
    (Exchange.withdrawOne_caught cap fees amp.isWritable burned.isWritable base.isWritable
      quote.isWritable)
  withdrawShare _ _ _ burned supply reserve := answers_of_caught (withdrawShare_eq _ _ _ _)
    (Exchange.withdrawShare_caught fees burned.isWritable supply.isWritable reserve.isWritable)
  withdrawBoth _ _ _ _ burned supply reserveA reserveB :=
    answers_of_caught (withdrawBoth_eq _ burned.isWritable supply.isWritable reserveB.isWritable _)
      (Exchange.withdrawBoth_caught fees burned.isWritable supply.isWritable reserveA.isWritable
        reserveB.isWritable)

end Guarded

end PegPool
