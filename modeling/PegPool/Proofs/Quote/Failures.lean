import PegPool.Proofs.Exchange.Guarded
import PegPool.Proofs.Quote.Ending

/-!
# How a quote can fail

Each operation is given here with the guards around its calculations, so that a quote can break off
in two ways: its caller is told of an error, or a fault escapes.  The second never happens to a quote of
brief integers, and the errors are those documented for the operation (`quotes_end_as_documented`).  In
particular the new reserves of a quote can be stored: they fit in 64 bits.
-/

namespace PegPool.Quote

open Guarded (guarding ofOutcome both)
open Text (Brief isWritable isWritable_nat)

/-- Why a quote breaks off. -/
inductive Interruption where
  /-- The caller is told of an error. -/
  | refused (error : QuoteError)
  /-- A fault was met outside the guards, or was one that no guard catches. -/
  | escaped
deriving DecidableEq, Repr

/-- How a quote without guards tells of the interruption. -/
def Interruption.ofError : QuoteError → Interruption
  | .unwritable => .escaped
  | e => .refused e

/-! ## Steps of a guarded quote -/

section Steps

variable {α β : Type} (operation : Operation)

/-- A step that cannot meet a fault. -/
def refusing (x : Traced QuoteError α) : Except Interruption α :=
  x.outcome.mapError .ofError

/-- A calculation within an operation; without an answer the operation has failed. -/
def answer (x : Guarded α) : Except Interruption α :=
  match x.run with
  | .ok (some a) => .ok a
  | .ok none => .error (.refused (.calculation operation))
  | .error _ => .error .escaped

@[simp] theorem refusing_pure (a : α) : refusing (pure a) = pure a :=
  rfl

@[simp] theorem refusing_throw (e : QuoteError) :
    refusing (throw e : Traced QuoteError α) = throw (.ofError e) :=
  rfl

@[simp] theorem refusing_log (event : Event) : refusing (Traced.log event) = pure () :=
  rfl

@[simp] theorem refusing_bind (x : Traced QuoteError α) (f : α → Traced QuoteError β) :
    refusing (x >>= f) = refusing x >>= fun a => refusing (f a) := by
  unfold refusing
  rw [Traced.outcome_bind]
  cases x.outcome with
  | ok a => rfl
  | error e => rfl

@[simp] theorem refusing_ite (c : Prop) [Decidable c] (x y : Traced QuoteError α) :
    refusing (if c then x else y) = if c then refusing x else refusing y :=
  apply_ite refusing c x y

@[simp] theorem refusing_attempt (y : Traced Fault α) :
    refusing (attempt operation y) = answer operation (ofOutcome y.outcome) := by
  unfold refusing attempt
  cases isOutcome : y.outcome with
  | ok a => rfl
  | error fault =>
    dsimp only
    rw [Guarded.ofOutcome_error, QuoteError.ofFault]
    split <;> rfl

@[simp] theorem refusing_compute (y : Except Fault α) :
    refusing (compute operation y) = answer operation (ofOutcome y) :=
  refusing_attempt operation (Traced.lift y)

@[simp] theorem answer_pure (a : α) : answer operation (pure a) = pure a :=
  rfl

@[simp] theorem answer_bind (x : Guarded α) (f : α → Guarded β) :
    answer operation (x >>= f) = answer operation x >>= fun a => answer operation (f a) := by
  obtain rfl | ⟨a, rfl⟩ | ⟨fault, rfl⟩ := x.ends
  · rfl
  · rw [pure_bind, answer_pure, pure_bind]
  · rfl

@[simp] theorem answer_map (f : α → β) (x : Guarded α) :
    answer operation (f <$> x) = f <$> answer operation x := by
  simp only [← bind_pure_comp, answer_bind, answer_pure]

theorem answer_bind_congr {y : Except Fault α} {f g : α → Except Interruption β}
    (same : ∀ a, y = .ok a → f a = g a) :
    answer operation (ofOutcome y) >>= f = answer operation (ofOutcome y) >>= g := by
  cases y with
  | ok a => exact same a rfl
  | error fault =>
    rw [Guarded.ofOutcome_error]
    split <;> rfl

end Steps

/-! ## The five operations -/

section Operations

variable (cap : Nat) (pool : Pool) (now : Int)

/-- What is minted is compared with the largest amount, without a guard. -/
def guardedFound (policy : RampPolicy) (amp reserveA reserveB : Int) :
    Except Interruption Founding := do
  if !policy.contains amp then throw (.ofError (QuoteError.invalidAmp amp).told)
  if reserveA = 0 ∨ reserveB = 0 then throw (.refused .emptyReserve)
  let ramp ← refusing (Traced.lift ((Ramp.fixed amp).mapError .malformedRamp))
  let operation := Operation.create amp reserveA reserveB
  let minted ← answer operation (Guarded.invariant cap reserveA reserveB (ramp.factor ramp.start))
  if 2 ^ 64 ≤ minted then throw (.refused (.calculation operation))
  let reserves ← refusing (store (Reserves.read reserveA reserveB minted))
  return ⟨ramp, minted, reserves⟩

def guardedSwap (amountIn minimum : Int) (direction : Direction) :
    Except Interruption (Option Swap) := do
  if amountIn = 0 then return none
  let r := pool.reserves
  let amounts ← answer (.swap amountIn direction) <|
    Guarded.swap cap pool.fees (pool.ramp.factor now) amountIn
      (r.get direction.source).val (r.get direction.destination).val
  refusing (requireAtLeast minimum amounts.amountSwapped)
  let r ← refusing (store (r.set direction.source amounts.newSource))
  let r ← refusing (store (r.set direction.destination amounts.newDestination))
  return some ⟨direction, amountIn, amounts, r⟩

def guardedDeposit (amountA amountB minimum : Int) : Except Interruption (Option Deposit) := do
  if amountA = 0 ∧ amountB = 0 then return none
  let r := pool.reserves
  if r.supply.val = 0 then throw (.refused .depositIntoEmpty)
  let operation := Operation.deposit amountA amountB
  let minted ← answer operation <|
    Guarded.mintForDeposit cap pool.fees (pool.ramp.factor now) amountA amountB r.a.val r.b.val
      r.supply.val
  refusing (requireAtLeast minimum minted)
  let (a, b, supply) ← answer operation <| guarding do
    let a ← (← (← Word.ofInt r.a.val).add amountA).narrow
    let b ← (← (← Word.ofInt r.b.val).add amountB).narrow
    let supply ← (← (← Word.ofInt r.supply.val).add minted).narrow
    return (a, b, supply)
  let newReserves ← refusing (store (Reserves.read a b supply))
  return some ⟨minted, newReserves⟩

def guardedWithdraw (burned minimumA minimumB : Int) :
    Except Interruption (Option Withdrawal) := do
  if burned = 0 then return none
  let r := pool.reserves
  refusing (requireBurnable burned r.supply.val)
  let operation := Operation.withdraw burned
  let (a, b) ← answer operation <|
    Guarded.withdrawBoth pool.fees burned r.supply.val r.a.val r.b.val
  refusing (requireAtLeast minimumA a.amount)
  refusing (requireAtLeast minimumB b.amount)
  let (newA, newB, newSupply) ← answer operation <| guarding do
    let newA ← (← (← Word.ofInt r.a.val).sub a.amount).sub a.adminFee
    let newB ← (← (← Word.ofInt r.b.val).sub b.amount).sub b.adminFee
    let newSupply ← (← Word.ofInt r.supply.val).sub burned
    return (newA, newB, newSupply)
  let newReserves ← refusing (store (Reserves.read newA newB newSupply))
  return some ⟨burned, a, b, newReserves⟩

/-- The withdraw fee on `dy` with what it leaves of it.  The two are compared, without a guard. -/
def chargeWithdrawFee (operation : Operation) (fees : Fees) (dy : Nat) :
    Except Interruption (Nat × Nat) := do
  let withdrawFee ← answer operation (Guarded.share fees.withdraw dy)
  if dy < withdrawFee then throw (.refused (.calculation operation))
  return (withdrawFee, dy - withdrawFee)

def guardedWithdrawOne (burned minimum : Int) (base : Asset) :
    Except Interruption (Option OneWithdrawal) := do
  if burned = 0 then return none
  let r := pool.reserves
  refusing (requireBurnable burned r.supply.val)
  let operation := Operation.withdrawOne burned base
  let w ← answer operation <|
    Guarded.withdrawOne cap pool.fees (pool.ramp.factor now) burned r.supply.val
      (r.get base).val (r.get base.other).val
  let (withdrawFee, amount) ← chargeWithdrawFee operation pool.fees w.dy
  refusing (requireAtLeast minimum amount)
  let (adminTrade, adminWithdraw) ← answer operation <| both
    (Guarded.share pool.fees.adminTrade w.fee) (Guarded.share pool.fees.adminWithdraw withdrawFee)
  let (adminFee, newBase, newSupply) ← answer operation <| guarding do
    let adminFee ← (← (← Word.ofInt adminTrade).add adminWithdraw).narrow
    let newBase ← (← (← Word.ofInt (r.get base).val).sub amount).sub adminFee
    let newSupply ← (← Word.ofInt r.supply.val).sub burned
    return (adminFee, newBase, newSupply)
  let newReserves ← refusing (store (r.set base newBase))
  let newReserves ← refusing (store (newReserves.setSupply newSupply))
  return some ⟨base, burned, amount, w.fee, withdrawFee, adminFee, newReserves⟩

theorem narrow_invariant {cap : Nat} (capPos : 1 ≤ cap) (a b amp : Int) :
    (do
      let d ← (Curve.invariant cap a b amp).outcome
      (← Word.ofInt d).narrow : Except Fault Nat) = (Curve.invariant cap a b amp).outcome := by
  cases isInvariant : (Curve.invariant cap a b amp).outcome with
  | error fault => rfl
  | ok d =>
    have fits := Curve.invariant_fits capPos isInvariant
    obtain ⟨w, isW⟩ := Word.exists_val_eq (z := d) (by omega) (by omega)
    rw [ok_bind, Word.ofInt_eq_ok.mpr isW, ok_bind]
    exact Word.narrow_eq_ok.mpr (by omega)

theorem guardedFound_eq {cap : Nat} (capPos : 1 ≤ cap) (policy : RampPolicy)
    (amp reserveA reserveB : Int) : guardedFound cap policy amp reserveA reserveB =
      refusing (found cap policy amp reserveA reserveB) := by
  simp only [guardedFound, found, Guarded.invariant_eq, refusing_ite, refusing_throw, refusing_bind,
    refusing_log, refusing_pure, refusing_attempt, Traced.outcome_bind, Traced.outcome_liftM,
    narrow_invariant capPos, throw_bind, pure_bind]
  -- both refuse the same coefficients and reserves; what is left is the comparison of what is minted
  congr 2
  refine bind_congr fun ramp => answer_bind_congr _ fun minted isInvariant => ?_
  have fits := Curve.invariant_fits capPos isInvariant
  rw [if_neg (by omega)]

theorem guardedSwap_eq (amountIn minimum : Int) (direction : Direction) :
    guardedSwap cap pool now amountIn minimum direction =
      refusing (swap cap pool now amountIn minimum direction) := by
  simp [guardedSwap, swap, Guarded.swap_eq]

theorem guardedDeposit_eq (amountA amountB minimum : Int) :
    guardedDeposit cap pool now amountA amountB minimum =
      refusing (deposit cap pool now amountA amountB minimum) := by
  simp [guardedDeposit, deposit, Guarded.mintForDeposit_eq, Interruption.ofError]

theorem guardedWithdraw_eq {burned : Int} (writable : isWritable burned = true) (minimumA minimumB : Int) :
    guardedWithdraw pool burned minimumA minimumB =
      refusing (withdraw pool burned minimumA minimumB) := by
  simp [guardedWithdraw, withdraw, Guarded.withdrawBoth_eq pool.fees writable
    pool.reserves.supply.isWritable pool.reserves.b.isWritable]

theorem chargeWithdrawFee_eq (operation : Operation) (fees : Fees) {dy : Nat} (fits : dy < 2 ^ 64) :
    chargeWithdrawFee operation fees dy = refusing (compute operation do
      let withdrawFee ← fees.withdrawFee dy
      let amount ← (← Word.ofInt dy).sub withdrawFee
      return (withdrawFee, amount.val)) := by
  obtain ⟨w, isW⟩ := Word.exists_val_eq (z := dy) (by omega) (by omega)
  have isDy : Word.ofInt dy = .ok w := Word.ofInt_eq_ok.mpr isW
  simp only [chargeWithdrawFee, Fees.withdrawFee, Guarded.share_eq, refusing_compute,
    Guarded.ofOutcome_bind, Guarded.ofOutcome_ok, isDy, answer_bind, pure_bind]
  apply answer_bind_congr
  intro withdrawFee charged
  by_cases less : dy < withdrawFee
  · have underflow : w.sub withdrawFee = .error (.underflow w.val withdrawFee) := if_pos (by omega)
    have withdrawFits := (mulDiv_eq_ok.mp charged).2.2.2.2.2
    have caught := (w.sub_caught (.nat (by omega))).faults _ underflow
    rw [if_pos less, underflow, Guarded.ofOutcome_of_caught caught]
    rfl
  · obtain ⟨amount, isAmount⟩ := Word.exists_val_eq (z := w.val - withdrawFee) (by omega) (by omega)
    have paid : w.sub withdrawFee = .ok amount := Word.sub_eq_ok.mpr isAmount
    have sameAmount : dy - withdrawFee = amount.val := by omega
    rw [if_neg less, paid, sameAmount]
    rfl

theorem guardedWithdrawOne_eq (burned minimum : Int) (base : Asset) :
    guardedWithdrawOne cap pool now burned minimum base =
      refusing (withdrawOne cap pool now burned minimum base) := by
  simp only [guardedWithdrawOne, withdrawOne, Guarded.withdrawOne_eq, refusing_ite, refusing_pure,
    refusing_bind, refusing_attempt]
  -- the comparison with the withdraw fee is free of faults as the base reserve bounds `w.dy`
  congr 1
  refine bind_congr fun _ => answer_bind_congr _ fun w priced => ?_
  obtain ⟨dyFits, feeFits⟩ := pricedOne_fits priced
  rw [chargeWithdrawFee_eq _ _ dyFits, refusing_compute]
  refine answer_bind_congr _ fun charge isCharged => ?_
  obtain ⟨withdrawFee, amount⟩ := charge
  simp only [bind_eq_ok, pure_eq_ok, Prod.mk.injEq] at isCharged
  obtain ⟨_, charged, _, -, _, -, isWithdrawFee, -⟩ := isCharged
  have withdrawFits := (mulDiv_eq_ok.mp charged).2.2.2.2.2
  have caught : Caught (pool.fees.adminWithdraw.share withdrawFee) fun n => n < 2 ^ 64 :=
    pool.fees.adminWithdraw.share_caught (isWritable_nat (by omega))
  simp [Guarded.share_eq, Guarded.both_ofOutcome _ caught, Fees.adminTradeFee, Fees.adminWithdrawFee]

end Operations

/-! ## Documented errors -/

section Kinds

variable {α β : Type} {cap : Nat}

/-- Whatever error the quote ends with, its kind is one of these. -/
def FailsOnlyAs (kinds : List String) (x : Except QuoteError α) : Prop :=
  ∀ e, x = .error e → ∃ kind ∈ kinds, e.kind? = some kind

theorem FailsOnlyAs.ok {kinds : List String} (a : α) : FailsOnlyAs kinds (.ok a) := by
  intro e failed
  cases failed

theorem FailsOnlyAs.error {kinds : List String} {e : QuoteError} {kind : String}
    (isKind : e.kind? = some kind) (documented : kind ∈ kinds) :
    FailsOnlyAs kinds (.error e : Except QuoteError α) := by
  intro e' failed
  cases failed
  exact ⟨kind, documented, isKind⟩

theorem FailsOnlyAs.failed {kinds : List String} {operation : Operation} {y : Except Fault β} {P : β → Prop}
    {fault : Fault} (caught : Caught y P) (failed : y = .error fault)
    (documented : "calculation_failure" ∈ kinds) :
    FailsOnlyAs kinds (.error (.ofFault operation fault) : Except QuoteError α) := by
  rw [ofFault_of_caught (caught.faults fault failed)]
  exact .error rfl documented

theorem FailsOnlyAs.slippage {kinds : List String} {minimum : Int} {payout : Nat} (brief : Brief minimum)
    (less : (payout : Int) < minimum) (documented : "exceeded_slippage" ∈ kinds) :
    FailsOnlyAs kinds (.error (QuoteError.slippage minimum payout).told : Except QuoteError α) := by
  rw [slippage_told less, if_pos brief.isWritable]
  exact .error rfl documented

theorem FailsOnlyAs.overBurn {kinds : List String} {burned : Int} {supply : Nat} (brief : Brief burned)
    (exceeds : (supply : Int) < burned) (documented : "invalid_input" ∈ kinds) :
    FailsOnlyAs kinds (.error (QuoteError.overBurn burned supply).told : Except QuoteError α) := by
  rw [overBurn_told brief.isWritable exceeds]
  exact .error rfl documented

theorem found_failsOnlyAs (capPos : 1 ≤ cap) {policy : RampPolicy} (minNonneg : 0 ≤ policy.minAmp)
    {amp reserveA reserveB : Int} (ampBrief : Brief amp) (aBrief : Brief reserveA)
    (bBrief : Brief reserveB) : FailsOnlyAs ["invalid_input", "empty_supply", "calculation_failure"]
      (found cap policy amp reserveA reserveB).outcome := by
  obtain ⟨x, ending⟩ := exists_foundEnding capPos policy amp reserveA reserveB
  rw [ending.outcome]
  cases ending with
  | invalidAmp outside =>
    rw [told_eq (by simp [QuoteError.numbers, ampBrief.isWritable])]
    exact .error rfl (by simp)
  | emptyReserve contained zero => exact .error rfl (by simp)
  | malformedRamp contained aNonzero bNonzero negative =>
    simp only [RampPolicy.contains, Bool.and_eq_true, decide_eq_true_eq] at contained
    omega
  | failed foundable failed =>
    have caught := Curve.invariant_caught cap aBrief.isWritable bBrief.isWritable ampBrief.isWritable
    exact .failed caught failed (by simp)
  | founded foundable isRamp invariant isA isB isSupply => exact .ok _

/-- The coefficients between which the ramp moves are brief. -/
def BriefRamp (r : Ramp) : Prop :=
  Brief r.initial ∧ Brief r.target

theorem BriefRamp.isWritable {r : Ramp} (brief : BriefRamp r) (now : Int) :
    Text.isWritable (r.factor now) = true := by
  have between := r.factor_mem_uIcc now
  rw [Set.mem_uIcc] at between
  obtain ⟨initialBrief, targetBrief⟩ := brief
  have factorBrief : Brief (r.factor now) := by
    unfold Brief at *
    omega
  exact factorBrief.isWritable

variable {pool : Pool} {minimum burned : Int}

theorem swap_failsOnlyAs (ramp : BriefRamp pool.ramp) {amountIn : Int} (amountBrief : Brief amountIn)
    (minimumBrief : Brief minimum) (cap : Nat) (now : Int) (direction : Direction) :
    FailsOnlyAs ["calculation_failure", "exceeded_slippage"]
      (swap cap pool now amountIn minimum direction).outcome := by
  obtain ⟨x, ending⟩ := exists_swapEnding cap pool now amountIn minimum direction
  rw [ending.outcome]
  cases ending with
  | nothing zero => exact .ok _
  | failed nonzero failed =>
    have caught : Caught (pricedSwap cap pool now amountIn direction) :=
      Exchange.swap_caught cap pool.fees (ramp.isWritable now) amountBrief (Amount.isWritable _)
        (Amount.isWritable _)
    exact .failed caught failed (by simp)
  | short nonzero priced less => exact .slippage minimumBrief less (by simp)
  | swapped nonzero priced enough isSource isDestination sameSupply => exact .ok _

theorem deposit_failsOnlyAs (ramp : BriefRamp pool.ramp) {amountA amountB : Int} (aBrief : Brief amountA)
    (bBrief : Brief amountB) (minimumBrief : Brief minimum) (cap : Nat) (now : Int) :
    FailsOnlyAs ["empty_pool", "calculation_failure", "exceeded_slippage"]
      (deposit cap pool now amountA amountB minimum).outcome := by
  obtain ⟨x, ending⟩ := exists_depositEnding cap pool now amountA amountB minimum
  rw [ending.outcome]
  cases ending with
  | nothing zero => exact .ok _
  | empty nonzero noSupply => exact .error rfl (by simp)
  | failed nonzero supplyPos failed =>
    have caught := Exchange.mintForDeposit_caught cap pool.fees (ramp.isWritable now)
      pool.reserves.a.brief pool.reserves.b.brief (pool.reserves.a.brief.isWritable_add aBrief)
      (pool.reserves.b.brief.isWritable_add bBrief) pool.reserves.supply.isWritable
    exact .failed caught failed (by simp)
  | short nonzero supplyPos priced less => exact .slippage minimumBrief less (by simp)
  | overflow nonzero supplyPos priced enough exceeds => exact .error rfl (by simp)
  | deposited nonzero supplyPos priced enough isA isB isSupply => exact .ok _

theorem withdraw_failsOnlyAs {minimumA minimumB : Int} (burnedBrief : Brief burned)
    (aBrief : Brief minimumA) (bBrief : Brief minimumB) (pool : Pool) :
    FailsOnlyAs ["empty_pool", "invalid_input", "calculation_failure", "exceeded_slippage"]
      (withdraw pool burned minimumA minimumB).outcome := by
  obtain ⟨x, ending⟩ := exists_withdrawEnding pool burned minimumA minimumB
  rw [ending.outcome]
  cases ending with
  | nothing zero => exact .ok _
  | empty nonzero noSupply => exact .error rfl (by simp)
  | overBurn nonzero supplyPos exceeds => exact .overBurn burnedBrief exceeds (by simp)
  | failed nonzero burnable failed =>
    have caught := Exchange.withdrawBoth_caught pool.fees burnedBrief.isWritable
      pool.reserves.supply.isWritable pool.reserves.a.isWritable pool.reserves.b.isWritable
    exact .failed caught failed (by simp)
  | shortA nonzero burnable priced less => exact .slippage aBrief less (by simp)
  | shortB nonzero burnable priced enough less => exact .slippage bBrief less (by simp)
  | unbacked nonzero burnable priced enoughA enoughB lacks => exact .error rfl (by simp)
  | withdrawn nonzero burnable priced enoughA enoughB isA isB isSupply => exact .ok _

theorem withdrawOne_failsOnlyAs (ramp : BriefRamp pool.ramp) (burnedBrief : Brief burned)
    (minimumBrief : Brief minimum) (cap : Nat) (now : Int) (base : Asset) :
    FailsOnlyAs ["empty_pool", "invalid_input", "calculation_failure", "exceeded_slippage"]
      (withdrawOne cap pool now burned minimum base).outcome := by
  obtain ⟨x, ending⟩ := exists_withdrawOneEnding cap pool now burned minimum base
  rw [ending.outcome]
  cases ending with
  | nothing zero => exact .ok _
  | empty nonzero noSupply => exact .error rfl (by simp)
  | overBurn nonzero supplyPos exceeds => exact .overBurn burnedBrief exceeds (by simp)
  | failed nonzero burnable failed =>
    have caught : Caught (pricedOne cap pool now burned base) _ :=
      Exchange.withdrawOne_caught cap pool.fees (ramp.isWritable now) burnedBrief.isWritable
        (Amount.isWritable _) (Amount.isWritable _)
    exact .failed caught failed (by simp)
  | uncharged nonzero burnable priced uncharged => exact .error rfl (by simp)
  | short nonzero burnable charged less => exact .slippage minimumBrief less (by simp)
  | unbacked nonzero burnable charged enough lacks => exact .error rfl (by simp)
  | withdrawn nonzero burnable charged enough isAdminFee isBase sameOther isSupply => exact .ok _

/-- With its guards the quote ends as `y` does.  What breaks it off is an error of one of the kinds,
never a fault. -/
structure EndsAs (kinds : List String) (x : Except Interruption α) (y : Traced QuoteError α) :
    Prop where
  sameEnd : x = refusing y
  documented : ∀ interruption, x = .error interruption →
    ∃ e, interruption = .refused e ∧ ∃ kind ∈ kinds, e.kind? = some kind

theorem endsAs_of_failsOnlyAs {kinds : List String} {x : Except Interruption α}
    {y : Traced QuoteError α} (same : x = refusing y) (fails : FailsOnlyAs kinds y.outcome) :
    EndsAs kinds x y := by
  refine ⟨same, ?_⟩
  intro interruption broken
  rw [same, refusing] at broken
  cases ended : y.outcome with
  | ok a =>
    rw [ended, mapError_ok] at broken
    cases broken
  | error e =>
    rw [ended, mapError_error] at broken
    cases broken
    obtain ⟨kind, documented, isKind⟩ := fails e ended
    refine ⟨e, ?_, kind, documented, isKind⟩
    cases e with
    | unwritable => cases isKind
    | _ => rfl

end Kinds

/-- For all brief integers that they are asked for, the calculations answer, and each of the five
operations comes to nothing, to a quote whose reserves can be stored or to an error of a kind documented
for it.  A policy may not admit a negative coefficient. -/
theorem quotes_end_as_documented {cap : Nat} (capPos : 1 ≤ cap) :
    (∀ fees : Fees, Guarded.CalculationsAnswer cap fees) ∧
    (∀ (policy : RampPolicy) (amp reserveA reserveB : Int), 0 ≤ policy.minAmp → Brief amp →
      Brief reserveA → Brief reserveB →
      EndsAs ["invalid_input", "empty_supply", "calculation_failure"]
        (guardedFound cap policy amp reserveA reserveB) (found cap policy amp reserveA reserveB)) ∧
    (∀ (pool : Pool) (now amountIn minimum : Int) (direction : Direction), BriefRamp pool.ramp →
      Brief amountIn → Brief minimum →
      EndsAs ["calculation_failure", "exceeded_slippage"]
        (guardedSwap cap pool now amountIn minimum direction)
        (swap cap pool now amountIn minimum direction)) ∧
    (∀ (pool : Pool) (now amountA amountB minimum : Int), BriefRamp pool.ramp → Brief amountA →
      Brief amountB → Brief minimum →
      EndsAs ["empty_pool", "calculation_failure", "exceeded_slippage"]
        (guardedDeposit cap pool now amountA amountB minimum)
        (deposit cap pool now amountA amountB minimum)) ∧
    (∀ (pool : Pool) (burned minimumA minimumB : Int), Brief burned → Brief minimumA →
      Brief minimumB →
      EndsAs ["empty_pool", "invalid_input", "calculation_failure", "exceeded_slippage"]
        (guardedWithdraw pool burned minimumA minimumB)
        (withdraw pool burned minimumA minimumB)) ∧
    (∀ (pool : Pool) (now burned minimum : Int) (base : Asset), BriefRamp pool.ramp → Brief burned →
      Brief minimum →
      EndsAs ["empty_pool", "invalid_input", "calculation_failure", "exceeded_slippage"]
        (guardedWithdrawOne cap pool now burned minimum base)
        (withdrawOne cap pool now burned minimum base)) := by
  refine ⟨Guarded.calculations_answer cap, ?_, ?_, ?_, ?_, ?_⟩
  · intro policy amp reserveA reserveB minNonneg ampBrief aBrief bBrief
    exact endsAs_of_failsOnlyAs (guardedFound_eq capPos policy amp reserveA reserveB)
      (found_failsOnlyAs capPos minNonneg ampBrief aBrief bBrief)
  · intro pool now amountIn minimum direction ramp amountBrief minimumBrief
    exact endsAs_of_failsOnlyAs (guardedSwap_eq cap pool now amountIn minimum direction)
      (swap_failsOnlyAs ramp amountBrief minimumBrief cap now direction)
  · intro pool now amountA amountB minimum ramp aBrief bBrief minimumBrief
    exact endsAs_of_failsOnlyAs (guardedDeposit_eq cap pool now amountA amountB minimum)
      (deposit_failsOnlyAs ramp aBrief bBrief minimumBrief cap now)
  · intro pool burned minimumA minimumB burnedBrief aBrief bBrief
    exact endsAs_of_failsOnlyAs (guardedWithdraw_eq pool burnedBrief.isWritable minimumA minimumB)
      (withdraw_failsOnlyAs burnedBrief aBrief bBrief pool)
  · intro pool now burned minimum base ramp burnedBrief minimumBrief
    exact endsAs_of_failsOnlyAs (guardedWithdrawOne_eq cap pool now burned minimum base)
      (withdrawOne_failsOnlyAs ramp burnedBrief minimumBrief cap now base)

/-- A trade fee of twice the amount, and a withdraw fee that divides by zero. -/
def overcharging : Pool where
  ramp := Pool.steady
  fees := { Fees.free with trade := ⟨.nearest 2, .one⟩, withdraw := ⟨.one, .zero⟩ }
  reserves := ⟨.nearest 100, .nearest 100, .nearest 200⟩

/-- A founding with a negative reserve, a swap and a deposit of one asset at a trade fee of twice the
amount, and two withdrawals at a withdraw fee without a denominator fail as calculations.  Without
fees the swap pays 18. -/
theorem quotes_end_of_overcharging :
    1 ≤ Curve.defaultCap ∧ 0 ≤ ({} : RampPolicy).minAmp ∧
    guardedFound Curve.defaultCap {} 100 (-5) 7 =
      .error (.refused (.calculation (.create 100 (-5) 7))) ∧
    guardedSwap Curve.defaultCap overcharging 0 20 0 .aToB =
      .error (.refused (.calculation (.swap 20 .aToB))) ∧
    guardedSwap Curve.defaultCap { overcharging with fees := .free } 0 20 0 .aToB =
      .ok (some ⟨.aToB, 20, ⟨120, 82, 18, 0, 0⟩, ⟨.nearest 120, .nearest 82, .nearest 200⟩⟩) ∧
    guardedDeposit Curve.defaultCap overcharging 0 100000 0 0 =
      .error (.refused (.calculation (.deposit 100000 0))) ∧
    guardedWithdraw overcharging 100 0 0 = .error (.refused (.calculation (.withdraw 100))) ∧
    guardedWithdrawOne Curve.defaultCap overcharging 0 100 0 .a =
      .error (.refused (.calculation (.withdrawOne 100 .a))) := by
  have capPos : 1 ≤ Curve.defaultCap := by decide
  have minNonneg : 0 ≤ ({} : RampPolicy).minAmp := by decide
  have brief {z : Int} (less : z.natAbs < 2 ^ 256) : Brief z := .of_lt less
  have ramp : BriefRamp Pool.steady := ⟨brief (by decide), brief (by decide)⟩
  obtain ⟨-, founding, swapping, depositing, withdrawing, withdrawingOne⟩ :=
    quotes_end_as_documented capPos
  have founded := founding {} 100 (-5) 7 minNonneg (brief (by decide)) (brief (by decide))
    (brief (by decide))
  have swapped := swapping overcharging 0 20 0 .aToB ramp (brief (by decide)) (brief (by decide))
  have swappedFree := swapping { overcharging with fees := .free } 0 20 0 .aToB ramp
    (brief (by decide)) (brief (by decide))
  have deposited := depositing overcharging 0 100000 0 0 ramp (brief (by decide)) (brief (by decide))
    (brief (by decide))
  have withdrawn := withdrawing overcharging 100 0 0 (brief (by decide)) (brief (by decide))
    (brief (by decide))
  have withdrawnOne := withdrawingOne overcharging 0 100 0 .a ramp (brief (by decide))
    (brief (by decide))
  refine ⟨capPos, minNonneg, ?_, ?_, ?_, ?_, ?_, ?_⟩
  · exact founded.sameEnd.trans (by decide +kernel)
  · exact swapped.sameEnd.trans (by decide +kernel)
  · exact swappedFree.sameEnd.trans (by decide +kernel)
  · exact deposited.sameEnd.trans (by decide +kernel)
  · exact withdrawn.sameEnd.trans (by decide +kernel)
  · exact withdrawnOne.sameEnd.trans (by decide +kernel)

end PegPool.Quote
