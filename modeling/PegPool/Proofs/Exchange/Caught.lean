import PegPool.Exchange
import PegPool.Proofs.Curve.Domain
import PegPool.Proofs.Curve.ReserveDomain

/-!
# Which faults of the amounts are caught

The amounts of the pool are made of words and of the integers that a caller brings.  If the latter are
brief, or at least can be written where a step only reads them, every fault is caught.
-/

namespace PegPool

open Text (Brief isWritable isWritable_nat isWritable_of_lt isWritable_word)

section Fees

variable {value numerator denominator amount : Int}

theorem mulDiv_caught (valueWritable : isWritable value = true)
    (numeratorWritable : isWritable numerator = true) (denominatorWritable : isWritable denominator = true) :
    Caught (mulDiv value numerator denominator) fun n => n < 2 ^ 64 :=
  (Word.ofInt_caught valueWritable).andThen fun v => (Word.ofInt_caught numeratorWritable).andThen fun n =>
  (v.mul_caught (.word n)).andThen fun product => (Word.ofInt_caught denominatorWritable).andThen fun _ =>
  product.div_caught.andThen fun q => q.narrow_caught

theorem Amount.brief (amount : Amount) : Brief amount.val :=
  .nat (by have := amount.lt; omega)

theorem Amount.isWritable (amount : Amount) : Text.isWritable amount.val = true :=
  amount.brief.isWritable

theorem Rate.share_caught (r : Rate) (writable : isWritable amount = true) :
    Caught (r.share amount) fun n => n < 2 ^ 64 :=
  mulDiv_caught writable r.numerator.isWritable r.denominator.isWritable

theorem Fees.imbalanceFee_caught (fees : Fees) {assets : Int} (brief : Brief assets)
    (writable : Text.isWritable amount = true) :
    Caught (fees.imbalanceFee assets amount) fun n => n < 2 ^ 64 := by
  unfold imbalanceFee
  split
  · exact .error rfl
  · -- there are at least two assets, so one less is not further from zero
    have fewer : Brief (assets - 1) := by
      unfold Brief at *
      omega
    have scale : Text.isWritable ((assets - 1) * 4) = true := by
      rw [mul_comm]
      exact fewer.isWritable_mul ⟨4, by decide⟩
    exact (mulDiv_caught fees.trade.numerator.isWritable brief.isWritable scale).bind fun scaled fits =>
      mulDiv_caught writable (isWritable_nat (by omega)) fees.trade.denominator.isWritable

end Fees

/-! ## The curve -/

namespace Curve

variable (cap : Nat) {x d amp amountIn source destination : Int}

theorem otherAmount_caught (xWritable : isWritable x = true) (dWritable : isWritable d = true)
    (ampWritable : isWritable amp = true) :
    Caught (otherAmount cap x d amp).outcome fun y => y < 2 ^ 64 := by
  simp only [otherAmount, Traced.outcome_bind, Traced.outcome_liftM]
  exact (otherReserve_caught cap xWritable dWritable ampWritable).bind fun y fits =>
    (Word.ofInt_caught (isWritable_nat fits)).andThen fun w => w.narrow_caught

theorem output_caught (amountWritable : isWritable amountIn = true)
    (sourceWritable : isWritable source = true) (destinationWritable : isWritable destination = true)
    (ampWritable : isWritable amp = true) :
    Caught (output cap amountIn source destination amp).outcome fun y => y < 2 ^ 256 := by
  simp only [output, Traced.outcome_bind, Traced.outcome_liftM, Traced.outcome_pure, Word.read_int]
  exact (invariant_caught cap sourceWritable destinationWritable ampWritable).bind fun d dFits =>
    (Word.ofInt_caught sourceWritable).andThen fun s => (Word.ofInt_caught amountWritable).andThen fun a =>
    (s.add_caught (.word a)).andThen fun new => new.narrow_caught.bind fun newSource newFits =>
    (otherAmount_caught cap (isWritable_nat (by omega)) (isWritable_nat dFits)
      ampWritable).bind fun y yFits =>
    (Word.ofInt_caught destinationWritable).andThen fun w =>
    (w.sub_caught (.nat (by omega))).andThen fun left => .pure left.lt

end Curve

/-! ## Amounts -/

namespace Exchange

variable (cap : Nat) (fees : Fees) {amp supply : Int}

theorem swap_caught {amountIn source destination : Int} (ampWritable : isWritable amp = true)
    (amountBrief : Brief amountIn) (sourceWritable : isWritable source = true)
    (destinationWritable : isWritable destination = true) :
    Caught (swap cap fees amp amountIn source destination).outcome := by
  simp only [swap, Traced.outcome_bind, Traced.outcome_liftM, Traced.outcome_pure]
  exact (Curve.output_caught cap amountBrief.isWritable sourceWritable destinationWritable
      ampWritable).bind fun raw rawFits =>
    (Word.ofInt_caught (isWritable_nat rawFits)).andThen fun w =>
    (w.sub_caught (.of_lt (by decide))).andThen fun dy =>
    (fees.trade.share_caught (isWritable_word dy)).bind fun fee feeFits =>
    (fees.adminTrade.share_caught (isWritable_nat (by omega))).bind fun adminFee adminFits =>
    (dy.sub_caught (.nat (by omega))).andThen fun paid =>
    (Word.ofInt_caught destinationWritable).andThen fun w => (w.sub_caught (.word paid)).andThen fun left =>
    (left.sub_caught (.nat (by omega))).andThen fun _ =>
    (Word.ofInt_caught sourceWritable).andThen fun w => (w.add_caught amountBrief).andThen fun new =>
    new.narrow_caught.andThen fun _ => .pure trivial

theorem chargeImbalance_caught {d0 d1 new : Nat} {old : Int} (oldBrief : Brief old)
    (d1Fits : d1 < 2 ^ 256) (newFits : new < 2 ^ 256) :
    Caught (chargeImbalance fees d0 d1 old new) fun n => n < 2 ^ 256 :=
  (Word.ofInt_caught (isWritable_nat d1Fits)).andThen fun w =>
  (w.mul_caught oldBrief).andThen fun cross => cross.div_caught.andThen fun share =>
  share.narrow_caught.bind fun ideal idealFits =>
  (Word.ofInt_caught (isWritable_nat (by omega))).andThen fun w =>
  (w.dist_caught (.nat newFits)).andThen fun difference =>
  (fees.imbalanceFee_caught (.of_lt (by decide)) (isWritable_word difference)).bind fun fee feeFits =>
  (Word.ofInt_caught (isWritable_nat newFits)).andThen fun w =>
  (w.sub_caught (.nat (by omega))).andThen fun left => .pure left.lt

def newReserve (reserve deposit : Int) : Except Fault Nat := do
  (← (← Word.ofInt reserve).add deposit).narrow

theorem newReserve_eq_ok {reserve deposit : Int} {n : Nat} : newReserve reserve deposit = .ok n ↔
    (0 ≤ reserve ∧ reserve < 2 ^ 256) ∧ (n : Int) = reserve + deposit ∧ n < 2 ^ 64 := by
  simp only [newReserve, bind_eq_ok, Word.ofInt_eq_ok, Word.add_eq_ok, Word.narrow_eq_ok]
  constructor
  · rintro ⟨old, isOld, new, isNew, rfl, fits⟩
    have := old.lt
    omega
  · rintro ⟨⟨nonneg, oldFits⟩, isNew, fits⟩
    obtain ⟨old, isOld⟩ := Word.exists_val_eq nonneg oldFits
    obtain ⟨new, isWord⟩ := Word.exists_val_eq (z := (n : Int)) (by omega) (by omega)
    exact ⟨old, isOld, new, by omega, by omega, by omega⟩

/-- The fault of a sum beside a word shows the sum. -/
theorem isCaught_of_newReserve {old : Word} {deposit : Int} {fault : Fault}
    (failed : newReserve old.val deposit = .error fault) :
    fault.isCaught = isWritable (old.val + deposit) := by
  have isOld : Word.ofInt old.val = .ok old := Word.ofInt_eq_ok.mpr rfl
  cases isSum : Word.ofInt (old.val + deposit) with
  | error e =>
    have added : old.add deposit = .error e := isSum
    simp only [newReserve, isOld, ok_bind, added, error_bind, Except.error.injEq] at failed
    rw [← failed]
    exact Word.isCaught_of_ofInt isSum
  | ok new =>
    have added : old.add deposit = .ok new := isSum
    simp only [newReserve, isOld, ok_bind, added] at failed
    rw [new.narrow_caught.faults fault failed, ← Word.ofInt_eq_ok.mp isSum, isWritable_word]

theorem newReserve_caught {reserve deposit : Int} (reserveWritable : isWritable reserve = true)
    (newWritable : isWritable (reserve + deposit) = true) : Caught (newReserve reserve deposit) := by
  refine (Word.ofInt_caught reserveWritable).withValue.bind fun old isOld => ?_
  rw [Word.ofInt_eq_ok] at isOld
  rw [← isOld] at newWritable
  have sum : Caught (old.add deposit) := Word.ofInt_caught newWritable
  exact sum.andThen fun new => ⟨new.narrow_caught.faults, fun _ _ => trivial⟩

/-- The pool tokens for a deposit after which the invariant is `d1`, no longer `d0`. -/
def mintForGrowth (cap : Nat) (fees : Fees) (amp depositA depositB reserveA reserveB : Int)
    (supply : Operand) (d0 newA newB d1 : Nat) : Except Fault Nat := do
  if d1 ≤ d0 then throw .noGrowth
  let crossA ← (← Word.ofInt depositA).mul reserveB
  let crossB ← (← Word.ofInt depositB).mul reserveA
  if crossA.val = crossB.val then
    (← (← (← Word.read supply).mul depositA).div reserveA).narrow
  else
    let chargedA ← chargeImbalance fees d0 d1 reserveA newA
    let chargedB ← chargeImbalance fees d0 d1 reserveB newB
    let d2 ← (Curve.invariant cap chargedA chargedB amp).outcome
    let whole ← Word.read supply
    let growth ← (← Word.ofInt d2).sub d0
    (← (← whole.mul growth).div d0).narrow

theorem outcome_mintForDeposit {depositA depositB reserveA reserveB : Int} {supply : Operand} :
    (mintForDeposit cap fees amp depositA depositB reserveA reserveB supply).outcome = (do
      let d0 ← (Curve.invariant cap reserveA reserveB amp).outcome
      let newA ← newReserve reserveA depositA
      let newB ← newReserve reserveB depositB
      let d1 ← (Curve.invariant cap newA newB amp).outcome
      mintForGrowth cap fees amp depositA depositB reserveA reserveB supply d0 newA newB d1) := by
  simp only [mintForDeposit, mintForGrowth, newReserve, Traced.outcome_bind, Traced.outcome_liftM,
    Traced.outcome_ite, Traced.outcome_throw, bind_assoc]
  rfl

/-- The coefficient is only needed for a deposit that raises the invariant. -/
theorem mintForGrowth_caught {depositA depositB reserveA reserveB : Int} {d0 newA newB d1 : Nat}
    (ampWritable : d0 < d1 → isWritable amp = true) (depositABrief : Brief depositA)
    (depositBBrief : Brief depositB) (aBrief : Brief reserveA) (bBrief : Brief reserveB)
    (supplyWritable : isWritable supply = true) (d0Fits : d0 < 2 ^ 256) (d1Fits : d1 < 2 ^ 256)
    (newAFits : newA < 2 ^ 64) (newBFits : newB < 2 ^ 64) :
    Caught (mintForGrowth cap fees amp depositA depositB reserveA reserveB supply d0 newA newB d1) := by
  unfold mintForGrowth
  split
  case isTrue => exact .error rfl
  case isFalse grows =>
    refine (Word.ofInt_caught depositABrief.isWritable).andThen fun a =>
      (a.mul_caught bBrief).andThen fun crossA =>
      (Word.ofInt_caught depositBBrief.isWritable).andThen fun b =>
      (b.mul_caught aBrief).andThen fun crossB => ?_
    rw [Word.read_int]
    split
    · exact (Word.ofInt_caught supplyWritable).andThen fun whole =>
        (whole.mul_caught depositABrief).andThen fun product => product.div_caught.andThen fun share =>
        ⟨share.narrow_caught.faults, fun _ _ => trivial⟩
    · exact (chargeImbalance_caught fees aBrief d1Fits (by omega)).bind fun chargedA chargedAFits =>
        (chargeImbalance_caught fees bBrief d1Fits (by omega)).bind fun chargedB chargedBFits =>
        (Curve.invariant_caught cap (isWritable_nat chargedAFits) (isWritable_nat chargedBFits)
          (ampWritable (by omega))).bind fun d2 d2Fits =>
        (Word.ofInt_caught supplyWritable).andThen fun whole =>
        (Word.ofInt_caught (isWritable_nat d2Fits)).andThen fun w =>
        (w.sub_caught (.nat d0Fits)).andThen fun growth =>
        (whole.mul_caught (.word growth)).andThen fun product => product.div_caught.andThen fun share =>
        ⟨share.narrow_caught.faults, fun _ _ => trivial⟩

theorem brief_of_newReserve {reserve deposit : Int} {n : Nat} (isNew : newReserve reserve deposit = .ok n) :
    n < 2 ^ 64 ∧ Brief deposit := by
  obtain ⟨oldFits, isSum, fits⟩ := newReserve_eq_ok.mp isNew
  exact ⟨fits, .of_lt (by omega)⟩

theorem mintForDeposit_caught {depositA depositB reserveA reserveB : Int}
    (ampWritable : isWritable amp = true) (aBrief : Brief reserveA) (bBrief : Brief reserveB)
    (newAWritable : isWritable (reserveA + depositA) = true)
    (newBWritable : isWritable (reserveB + depositB) = true) (supplyWritable : isWritable supply = true) :
    Caught (mintForDeposit cap fees amp depositA depositB reserveA reserveB supply).outcome := by
  rw [outcome_mintForDeposit]
  refine (Curve.invariant_caught cap aBrief.isWritable bBrief.isWritable ampWritable).bind fun d0 d0Fits =>
    (newReserve_caught aBrief.isWritable newAWritable).withValue.bind fun newA isNewA =>
    (newReserve_caught bBrief.isWritable newBWritable).withValue.bind fun newB isNewB => ?_
  obtain ⟨newAFits, depositABrief⟩ := brief_of_newReserve isNewA
  obtain ⟨newBFits, depositBBrief⟩ := brief_of_newReserve isNewB
  exact (Curve.invariant_caught cap (isWritable_nat (by omega)) (isWritable_nat (by omega))
    ampWritable).bind fun d1 d1Fits => mintForGrowth_caught cap fees (fun _ => ampWritable) depositABrief
      depositBBrief aBrief bBrief supplyWritable d0Fits d1Fits newAFits newBFits

theorem withdrawOne_caught {burned base quote : Int} (ampWritable : isWritable amp = true)
    (burnedWritable : isWritable burned = true) (baseWritable : isWritable base = true)
    (quoteWritable : isWritable quote = true) :
    Caught (withdrawOne cap fees amp burned supply base quote).outcome
      fun w => w.dy < 2 ^ 256 ∧ w.fee < 2 ^ 256 := by
  simp only [withdrawOne, Traced.outcome_bind, Traced.outcome_liftM, Traced.outcome_pure]
  exact (Curve.invariant_caught cap baseWritable quoteWritable ampWritable).bind fun d0 d0Fits =>
    (Word.ofInt_caught burnedWritable).andThen fun w => (w.mul_caught (.nat d0Fits)).andThen fun product =>
    product.div_caught.andThen fun cut => (Word.ofInt_caught (isWritable_nat d0Fits)).andThen fun w =>
    (w.sub_caught (.word cut)).andThen fun d1 =>
    (Curve.otherAmount_caught cap quoteWritable (isWritable_word d1) ampWritable).bind fun newY yFits =>
    (Word.ofInt_caught baseWritable).andThen fun rb => (rb.mul_caught (.word d1)).andThen fun cross =>
    cross.div_caught.andThen fun share => share.narrow_caught.bind fun baseShare baseShareFits =>
    (Word.ofInt_caught (isWritable_nat (by omega))).andThen fun w =>
    (w.sub_caught (.nat (by omega))).andThen fun baseMove =>
    (Word.ofInt_caught quoteWritable).andThen fun rq => (rq.mul_caught (.word d1)).andThen fun cross =>
    cross.div_caught.andThen fun share => share.narrow_caught.bind fun quoteShare quoteShareFits =>
    (Word.ofInt_caught quoteWritable).andThen fun rq =>
    (rq.sub_caught (.nat (by omega))).andThen fun quoteMove =>
    (fees.imbalanceFee_caught (.of_lt (by decide)) (isWritable_word baseMove)).bind fun _ baseFeeFits =>
    (fees.imbalanceFee_caught (.of_lt (by decide)) (isWritable_word quoteMove)).bind fun _ feeFits =>
    (Word.ofInt_caught baseWritable).andThen fun rb =>
    (rb.sub_caught (.nat (by omega))).andThen fun chargedBase =>
    (Word.ofInt_caught quoteWritable).andThen fun rq =>
    (rq.sub_caught (.nat (by omega))).andThen fun chargedQuote =>
    (Curve.otherAmount_caught cap (isWritable_word chargedQuote) (isWritable_word d1)
      ampWritable).bind fun adjustedY adjustedFits =>
    (chargedBase.sub_caught (.nat (by omega))).andThen fun left =>
    (left.sub_caught (.of_lt (by decide))).andThen fun dy =>
    (Word.ofInt_caught baseWritable).andThen fun rb => (rb.sub_caught (.nat (by omega))).andThen fun dy0 =>
    (dy0.sub_caught (.word dy)).andThen fun fee => .pure ⟨dy.lt, fee.lt⟩

theorem withdrawShare_caught {burned reserve : Int} (burnedWritable : isWritable burned = true)
    (supplyWritable : isWritable supply = true) (reserveWritable : isWritable reserve = true) :
    Caught (withdrawShare fees burned supply reserve) := by
  refine (mulDiv_caught reserveWritable burnedWritable supplyWritable).bind fun share shareFits =>
    (mulDiv_caught (isWritable_nat (by omega)) (isWritable_of_lt (by decide))
      (isWritable_of_lt (by decide))).bind fun imbalance imbalanceFits =>
    (fees.imbalanceFee_caught (.of_lt (by decide)) (isWritable_nat (by omega))).bind
      fun tradeFee tradeFits => (Word.ofInt_caught (isWritable_nat (by omega))).andThen fun w =>
    (w.sub_caught (.nat (by omega))).andThen fun afterTrade =>
    (fees.withdraw.share_caught (isWritable_word afterTrade)).bind fun withdrawFee withdrawFits =>
    (fees.adminTrade.share_caught (isWritable_nat (by omega))).bind fun adminTrade adminTradeFits =>
    (fees.adminWithdraw.share_caught (isWritable_nat (by omega))).bind
      fun adminWithdraw adminWithdrawFits =>
    (Word.ofInt_caught (isWritable_nat (by omega))).andThen fun w =>
    (w.add_caught (.nat (by omega))).andThen fun both => both.narrow_caught.andThen fun _ =>
    (afterTrade.sub_caught (.nat (by omega))).andThen fun amount =>
    (Word.ofInt_caught (isWritable_nat (by omega))).andThen fun w =>
    (w.add_caught (.nat (by omega))).andThen fun sum => sum.narrow_caught.andThen fun _ => .pure trivial

theorem withdrawBoth_caught {burned reserveA reserveB : Int} (burnedWritable : isWritable burned = true)
    (supplyWritable : isWritable supply = true) (aWritable : isWritable reserveA = true)
    (bWritable : isWritable reserveB = true) :
    Caught (withdrawBoth fees burned supply reserveA reserveB) :=
  (withdrawShare_caught fees burnedWritable supplyWritable aWritable).andThen fun _ =>
  (withdrawShare_caught fees burnedWritable supplyWritable bWritable).andThen fun _ => .pure trivial

end Exchange

end PegPool
