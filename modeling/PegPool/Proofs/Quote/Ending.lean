import PegPool.Proofs.Exchange.Caught
import PegPool.Proofs.Exchange.Deposit
import PegPool.Proofs.Exchange.Liquidity
import PegPool.Proofs.Pool.Steps
import PegPool.Proofs.Ramp.Change

/-!
# How a quote ends

Each of the five operations has a relation that lists its endings, one rule per ending, with all that
decides it.  Every quote ends by one of the rules (`exists_swapEnding` and its like), and a rule
determines the outcome (`SwapEnding.outcome` and its like).

No rule stores a reserve that does not fit in 64 bits, so that an error without a kind can only come
from a negative coefficient.
-/

namespace PegPool

theorem Amount.exists_val_eq {z : Int} (nonneg : 0 ≤ z) (fits : z < 2 ^ 64) :
    ∃ amount : Amount, (amount.val : Int) = z :=
  ⟨⟨z.toNat, by omega⟩, Int.toNat_of_nonneg nonneg⟩

theorem Amount.exists_word (amount : Amount) : ∃ w : Word, w.val = amount.val :=
  ⟨⟨amount.val, by have := amount.lt; omega⟩, rfl⟩

theorem Reserves.exists_read {a b s : Int} (aFits : 0 ≤ a ∧ a < 2 ^ 64) (bFits : 0 ≤ b ∧ b < 2 ^ 64)
    (supplyFits : 0 ≤ s ∧ s < 2 ^ 64) :
    ∃ r : Reserves, (r.a.val : Int) = a ∧ (r.b.val : Int) = b ∧ (r.supply.val : Int) = s := by
  obtain ⟨a, isA⟩ := Amount.exists_val_eq aFits.1 aFits.2
  obtain ⟨b, isB⟩ := Amount.exists_val_eq bFits.1 bFits.2
  obtain ⟨supply, isSupply⟩ := Amount.exists_val_eq supplyFits.1 supplyFits.2
  exact ⟨⟨a, b, supply⟩, isA, isB, isSupply⟩

theorem Reserves.exists_set (r : Reserves) (asset : Asset) {z : Int} (nonneg : 0 ≤ z)
    (fits : z < 2 ^ 64) : ∃ next : Reserves, ((next.get asset).val : Int) = z ∧
      next.get asset.other = r.get asset.other ∧ next.supply = r.supply := by
  obtain ⟨amount, isValue⟩ := Amount.exists_val_eq nonneg fits
  cases asset with
  | a => exact ⟨⟨amount, r.b, r.supply⟩, isValue, rfl, rfl⟩
  | b => exact ⟨⟨r.a, amount, r.supply⟩, isValue, rfl, rfl⟩

theorem Reserves.exists_setSupply (r : Reserves) {z : Int} (nonneg : 0 ≤ z) (fits : z < 2 ^ 64) :
    ∃ next : Reserves, (∀ asset, next.get asset = r.get asset) ∧ (next.supply.val : Int) = z := by
  obtain ⟨amount, isSupply⟩ := Amount.exists_val_eq nonneg fits
  refine ⟨⟨r.a, r.b, amount⟩, ?_, isSupply⟩
  intro asset
  cases asset with
  | a => rfl
  | b => rfl

theorem Direction.other_destination (direction : Direction) :
    direction.destination.other = direction.source := by
  cases direction with
  | aToB => rfl
  | bToA => rfl

namespace Quote

variable {α : Type} {operation : Operation}

theorem attempt_failed {x : Traced Fault α} {fault : Fault} (failed : x.outcome = .error fault) :
    (attempt operation x).outcome = .error (.ofFault operation fault) := by
  simp only [attempt, failed]

theorem compute_failed {x : Except Fault α} {fault : Fault} (failed : x = .error fault) :
    (compute operation x).outcome = .error (.ofFault operation fault) :=
  attempt_failed failed

theorem ofFault_of_caught {fault : Fault} (caught : fault.isCaught = true) :
    QuoteError.ofFault operation fault = .calculation operation :=
  if_pos caught

/-- A calculation whose faults are caught fails as one. -/
theorem compute_of_caught {x : Except Fault α} {P : α → Prop} (caught : Caught x P)
    (failed : ∀ value, x ≠ .ok value) :
    (compute operation x).outcome = .error (.calculation operation) := by
  obtain ⟨fault, isFault, faultCaught⟩ := caught.exists_fault failed
  rw [compute_failed isFault, ofFault_of_caught faultCaught]

theorem told_eq {e : QuoteError} (writable : ∀ z ∈ e.numbers, Text.isWritable z = true) : e.told = e :=
  if_pos (List.all_eq_true.mpr writable)

/-- What is paid can be written if the minimum that it misses can be. -/
theorem slippage_told {minimum : Int} {payout : Nat} (less : (payout : Int) < minimum) :
    (QuoteError.slippage minimum payout).told =
      if Text.isWritable minimum then .slippage minimum payout else .unwritable := by
  split
  case isTrue writable =>
    have payoutWritable : Text.isWritable payout = true := by
      rw [Text.isWritable_iff] at *
      omega
    exact told_eq (by simp [QuoteError.numbers, writable, payoutWritable])
  case isFalse unwritable => simp [QuoteError.told, QuoteError.numbers, unwritable]

theorem overBurn_told {burned : Int} {supply : Nat} (writable : Text.isWritable burned = true)
    (exceeds : (supply : Int) < burned) :
    (QuoteError.overBurn burned supply).told = .overBurn burned supply := by
  have supplyWritable : Text.isWritable supply = true := by
    rw [Text.isWritable_iff] at *
    omega
  exact told_eq (by simp [QuoteError.numbers, writable, supplyWritable])

theorem outcome_requireAtLeast (minimum actual : Int) : (requireAtLeast minimum actual).outcome =
    if actual < minimum then .error (QuoteError.slippage minimum actual).told else .ok () := by
  unfold requireAtLeast
  split <;> rfl

theorem requireAtLeast_ok {minimum actual : Int} (enough : minimum ≤ actual) :
    (requireAtLeast minimum actual).outcome = .ok () := by
  rw [outcome_requireAtLeast, if_neg (by omega)]

theorem requireAtLeast_short {minimum actual : Int} (less : actual < minimum) :
    (requireAtLeast minimum actual).outcome = .error (QuoteError.slippage minimum actual).told := by
  rw [outcome_requireAtLeast, if_pos less]

theorem requireBurnable_ok {burned : Int} {supply : Nat} (burnable : 0 < supply ∧ burned ≤ supply) :
    (requireBurnable burned supply).outcome = .ok () :=
  outcome_requireBurnable.mpr burnable

theorem requireBurnable_empty {burned : Int} {supply : Nat} (zero : supply = 0) :
    (requireBurnable burned supply).outcome = .error .withdrawFromEmpty := by
  rw [requireBurnable, if_pos zero]
  rfl

theorem requireBurnable_exceeds {burned : Int} {supply : Nat} (positive : 0 < supply)
    (exceeds : (supply : Int) < burned) :
    (requireBurnable burned supply).outcome = .error (QuoteError.overBurn burned supply).told := by
  rw [requireBurnable, if_neg (by omega), if_pos exceeds]
  rfl

variable {cap : Nat} {pool : Pool} {now minimum : Int}

/-! ## Foundings -/

section Found

variable {policy : RampPolicy} {amp reserveA reserveB : Int}

/-- The amounts of a founding can be priced: the coefficient is within the policy, and there is
something of both assets. -/
structure Foundable (policy : RampPolicy) (amp reserveA reserveB : Int) : Prop where
  contained : policy.contains amp = true
  aNonzero : reserveA ≠ 0
  bNonzero : reserveB ≠ 0
  nonneg : 0 ≤ amp

inductive FoundEnding (cap : Nat) (policy : RampPolicy) (amp reserveA reserveB : Int) :
    Except QuoteError Founding → Prop where
  | invalidAmp (outside : policy.contains amp = false) :
      FoundEnding cap policy amp reserveA reserveB (.error (QuoteError.invalidAmp amp).told)
  | emptyReserve (contained : policy.contains amp = true) (zero : reserveA = 0 ∨ reserveB = 0) :
      FoundEnding cap policy amp reserveA reserveB (.error .emptyReserve)
  | malformedRamp (contained : policy.contains amp = true) (aNonzero : reserveA ≠ 0)
      (bNonzero : reserveB ≠ 0) (negative : amp < 0) :
      FoundEnding cap policy amp reserveA reserveB (.error (.malformedRamp .negativeCoefficient))
  | failed {fault : Fault} (foundable : Foundable policy amp reserveA reserveB)
      (failed : (Curve.invariant cap reserveA reserveB amp).outcome = .error fault) :
      FoundEnding cap policy amp reserveA reserveB
        (.error (.ofFault (.create amp reserveA reserveB) fault))
  | founded {ramp : Ramp} {minted : Nat} {reserves : Reserves}
      (foundable : Foundable policy amp reserveA reserveB) (isRamp : Ramp.fixed amp = .ok ramp)
      (invariant : (Curve.invariant cap reserveA reserveB amp).outcome = .ok minted)
      (isA : (reserves.a.val : Int) = reserveA) (isB : (reserves.b.val : Int) = reserveB)
      (isSupply : (reserves.supply.val : Int) = minted) :
      FoundEnding cap policy amp reserveA reserveB (.ok ⟨ramp, minted, reserves⟩)

theorem FoundEnding.outcome {x : Except QuoteError Founding}
    (ending : FoundEnding cap policy amp reserveA reserveB x) :
    (found cap policy amp reserveA reserveB).outcome = x := by
  simp only [found, Traced.outcome_bind, Traced.outcome_ite, Traced.outcome_throw, error_bind,
    Traced.outcome_lift, Traced.outcome_log, ok_bind, Traced.outcome_pure]
  cases ending with
  | invalidAmp outside =>
    rw [outside]
    rfl
  | emptyReserve contained zero =>
    rw [contained, if_neg (by decide), if_pos zero]
  | malformedRamp contained aNonzero bNonzero negative =>
    rw [contained, if_neg (by decide), if_neg (by tauto), Ramp.fixed_of_neg negative]
    rfl
  | failed foundable failed =>
    obtain ⟨contained, aNonzero, bNonzero, nonneg⟩ := foundable
    have isRamp := Ramp.fixed_of_nonneg nonneg
    rw [contained, if_neg (by decide), if_neg (by tauto), isRamp, mapError_ok, ok_bind,
      Ramp.factor_fixed isRamp, attempt_failed (by rw [Traced.outcome_bind, failed, error_bind])]
    rfl
  | @founded ramp minted reserves foundable isRamp invariant isA isB isSupply =>
    obtain ⟨contained, aNonzero, bNonzero, nonneg⟩ := foundable
    rw [contained, if_neg (by decide), if_neg (by tauto), isRamp, mapError_ok, ok_bind,
      Ramp.factor_fixed isRamp]
    have fits := reserves.supply.lt
    obtain ⟨w, isW⟩ := Word.exists_val_eq (z := minted) (by omega) (by omega)
    have narrowed : (do
        let d ← Curve.invariant cap reserveA reserveB amp
        (← Word.ofInt d).narrow : Traced Fault Nat).outcome = .ok minted := by
      simp only [Traced.outcome_bind, Traced.outcome_liftM, bind_eq_ok, Word.ofInt_eq_ok,
        Word.narrow_eq_ok]
      exact ⟨minted, invariant, w, isW, by omega, by omega⟩
    rw [outcome_attempt.mpr narrowed, ok_bind,
      outcome_store.mpr (Reserves.read_eq_ok.mpr ⟨isA, isB, isSupply⟩), ok_bind]

theorem exists_foundEnding (capPos : 1 ≤ cap) (policy : RampPolicy) (amp reserveA reserveB : Int) :
    ∃ x, FoundEnding cap policy amp reserveA reserveB x := by
  cases contained : policy.contains amp with
  | false => exact ⟨_, .invalidAmp contained⟩
  | true =>
    by_cases zero : reserveA = 0 ∨ reserveB = 0
    · exact ⟨_, .emptyReserve contained zero⟩
    · obtain ⟨aNonzero, bNonzero⟩ := not_or.mp zero
      obtain negative | nonneg := lt_or_ge amp 0
      · exact ⟨_, .malformedRamp contained aNonzero bNonzero negative⟩
      · have foundable : Foundable policy amp reserveA reserveB := ⟨contained, aNonzero, bNonzero, nonneg⟩
        cases invariant : (Curve.invariant cap reserveA reserveB amp).outcome with
        | error fault => exact ⟨_, .failed foundable invariant⟩
        | ok minted =>
          have fits := Curve.invariant_fits capPos invariant
          obtain ⟨none, -⟩ | ⟨range, -⟩ := Curve.invariant_spec capPos invariant
          · exact absurd none aNonzero
          · obtain ⟨aPos, bPos, -, -, aFits, bFits, -⟩ := range
            obtain ⟨reserves, isA, isB, isSupply⟩ := Reserves.exists_read (a := reserveA) (b := reserveB)
              (s := minted) (by omega) (by omega) (by omega)
            exact ⟨_, .founded foundable (Ramp.fixed_of_nonneg nonneg) invariant isA isB isSupply⟩

theorem foundable_of_found (capPos : 1 ≤ cap) {q : Founding}
    (quoted : (found cap policy amp reserveA reserveB).outcome = .ok q) :
    Foundable policy amp reserveA reserveB ∧ Ramp.fixed amp = .ok q.ramp ∧
      (Curve.invariant cap reserveA reserveB amp).outcome = .ok q.minted ∧
      q.reserves.supply.val = q.minted := by
  obtain ⟨x, ending⟩ := exists_foundEnding capPos policy amp reserveA reserveB
  cases ending.outcome.symm.trans quoted
  cases ending with
  | founded foundable isRamp invariant isA isB isSupply =>
    exact ⟨foundable, isRamp, invariant, by dsimp only; omega⟩

end Found

/-! ## Swaps -/

section Swap

variable {amountIn : Int} {direction : Direction}

def pricedSwap (cap : Nat) (pool : Pool) (now amountIn : Int) (direction : Direction) :
    Except Fault Exchange.SwapAmounts :=
  (Exchange.swap cap pool.fees (pool.ramp.factor now) amountIn
    (pool.reserves.get direction.source).val (pool.reserves.get direction.destination).val).outcome

inductive SwapEnding (cap : Nat) (pool : Pool) (now amountIn minimum : Int)
    (direction : Direction) : Except QuoteError (Option Swap) → Prop where
  | nothing (zero : amountIn = 0) : SwapEnding cap pool now amountIn minimum direction (.ok none)
  | failed {fault : Fault} (nonzero : amountIn ≠ 0)
      (failed : pricedSwap cap pool now amountIn direction = .error fault) :
      SwapEnding cap pool now amountIn minimum direction
        (.error (.ofFault (.swap amountIn direction) fault))
  | short {s : Exchange.SwapAmounts} (nonzero : amountIn ≠ 0)
      (priced : pricedSwap cap pool now amountIn direction = .ok s)
      (less : (s.amountSwapped : Int) < minimum) :
      SwapEnding cap pool now amountIn minimum direction
        (.error (QuoteError.slippage minimum s.amountSwapped).told)
  | swapped {s : Exchange.SwapAmounts} {next : Reserves} (nonzero : amountIn ≠ 0)
      (priced : pricedSwap cap pool now amountIn direction = .ok s)
      (enough : minimum ≤ (s.amountSwapped : Int))
      (isSource : ((next.get direction.source).val : Int) = s.newSource)
      (isDestination : ((next.get direction.destination).val : Int) = s.newDestination)
      (sameSupply : next.supply = pool.reserves.supply) :
      SwapEnding cap pool now amountIn minimum direction
        (.ok (some ⟨direction, amountIn, s, next⟩))

theorem SwapEnding.outcome {x : Except QuoteError (Option Swap)}
    (ending : SwapEnding cap pool now amountIn minimum direction x) :
    (swap cap pool now amountIn minimum direction).outcome = x := by
  simp only [swap, Traced.outcome_bind, Traced.outcome_ite, Traced.outcome_log, ok_bind,
    Traced.outcome_pure]
  cases ending with
  | nothing zero => rw [if_pos zero]
  | failed nonzero failed =>
    rw [if_neg nonzero, attempt_failed failed]
    rfl
  | short nonzero priced less =>
    rw [if_neg nonzero, outcome_attempt.mpr priced, ok_bind, requireAtLeast_short less]
    rfl
  | @swapped s next nonzero priced enough isSource isDestination sameSupply =>
    -- the source is stored first, beside the old destination
    obtain ⟨first, isFirst, sameOther, firstSupply⟩ := pool.reserves.exists_set direction.source
      (z := s.newSource) (by omega) (by have := (next.get direction.source).lt; omega)
    have stored := Reserves.set_eq_ok.mpr ⟨isFirst, sameOther, firstSupply⟩
    have sameSource : next.get direction.destination.other = first.get direction.destination.other := by
      rw [direction.other_destination]
      exact Amount.ext (by omega)
    have stored' := Reserves.set_eq_ok.mpr ⟨isDestination, sameSource, sameSupply.trans firstSupply.symm⟩
    rw [if_neg nonzero, outcome_attempt.mpr priced, ok_bind, requireAtLeast_ok enough, ok_bind,
      outcome_store.mpr stored, ok_bind, outcome_store.mpr stored', ok_bind]

theorem exists_swapEnding (cap : Nat) (pool : Pool) (now amountIn minimum : Int)
    (direction : Direction) : ∃ x, SwapEnding cap pool now amountIn minimum direction x := by
  by_cases zero : amountIn = 0
  · exact ⟨_, .nothing zero⟩
  · cases priced : pricedSwap cap pool now amountIn direction with
    | error fault => exact ⟨_, .failed zero priced⟩
    | ok s =>
      obtain less | enough := lt_or_ge (s.amountSwapped : Int) minimum
      · exact ⟨_, .short zero priced less⟩
      · obtain ⟨d, y, -, solved, -, -, isDestination, isNewDestination⟩ :=
          Exchange.exists_pricedSwap priced
        have newSourceFits :=
          (Curve.solvable_of_otherReserve (Curve.otherAmount_eq_ok.mp solved).1).xFits
        have destinationFits := (pool.reserves.get direction.destination).lt
        obtain ⟨first, isFirst, -, firstSupply⟩ := pool.reserves.exists_set direction.source
          (z := s.newSource) (by omega) (by omega)
        obtain ⟨next, isNext, sameOther, nextSupply⟩ := first.exists_set direction.destination
          (z := s.newDestination) (by omega) (by omega)
        rw [direction.other_destination] at sameOther
        exact ⟨_, .swapped zero priced enough (by rw [sameOther]; exact isFirst) isNext
          (nextSupply.trans firstSupply)⟩

end Swap

/-! ## Deposits -/

section Deposit

variable {amountA amountB : Int}

def pricedDeposit (cap : Nat) (pool : Pool) (now amountA amountB : Int) : Except Fault Nat :=
  (Exchange.mintForDeposit cap pool.fees (pool.ramp.factor now) amountA amountB pool.reserves.a.val
    pool.reserves.b.val pool.reserves.supply.val).outcome

theorem newReserves_caught {minted : Nat} (priced : pricedDeposit cap pool now amountA amountB = .ok minted) :
    Caught (do
      let a ← (← (← Word.ofInt pool.reserves.a.val).add amountA).narrow
      let b ← (← (← Word.ofInt pool.reserves.b.val).add amountB).narrow
      let supply ← (← (← Word.ofInt pool.reserves.supply.val).add minted).narrow
      return (a, b, supply) : Except Fault (Nat × Nat × Nat)) := by
  obtain ⟨d0, d1, growth, mints⟩ := Exchange.growth_of_mintForDeposit priced
  obtain ⟨aNonneg, bNonneg, -, -, newAFits, newBFits, -⟩ := growth
  have aBrief : Text.Brief amountA := .of_lt (by have := pool.reserves.a.lt; omega)
  have bBrief : Text.Brief amountB := .of_lt (by have := pool.reserves.b.lt; omega)
  have mintedBrief : Text.Brief minted := .nat (by have := mints.fits; omega)
  exact (Word.ofInt_caught pool.reserves.a.isWritable).andThen fun a => (a.add_caught aBrief).andThen fun sum =>
    sum.narrow_caught.andThen fun _ => (Word.ofInt_caught pool.reserves.b.isWritable).andThen fun b =>
    (b.add_caught bBrief).andThen fun sum => sum.narrow_caught.andThen fun _ =>
    (Word.ofInt_caught pool.reserves.supply.isWritable).andThen fun supply =>
    (supply.add_caught mintedBrief).andThen fun sum => sum.narrow_caught.andThen fun _ => .pure trivial

inductive DepositEnding (cap : Nat) (pool : Pool) (now amountA amountB minimum : Int) :
    Except QuoteError (Option Deposit) → Prop where
  | nothing (zero : amountA = 0 ∧ amountB = 0) :
      DepositEnding cap pool now amountA amountB minimum (.ok none)
  | empty (nonzero : ¬(amountA = 0 ∧ amountB = 0)) (noSupply : pool.reserves.supply.val = 0) :
      DepositEnding cap pool now amountA amountB minimum (.error .depositIntoEmpty)
  | failed {fault : Fault} (nonzero : ¬(amountA = 0 ∧ amountB = 0))
      (supplyPos : 0 < pool.reserves.supply.val)
      (failed : pricedDeposit cap pool now amountA amountB = .error fault) :
      DepositEnding cap pool now amountA amountB minimum
        (.error (.ofFault (.deposit amountA amountB) fault))
  | short {minted : Nat} (nonzero : ¬(amountA = 0 ∧ amountB = 0))
      (supplyPos : 0 < pool.reserves.supply.val)
      (priced : pricedDeposit cap pool now amountA amountB = .ok minted)
      (less : (minted : Int) < minimum) :
      DepositEnding cap pool now amountA amountB minimum
        (.error (QuoteError.slippage minimum minted).told)
  | overflow {minted : Nat} (nonzero : ¬(amountA = 0 ∧ amountB = 0))
      (supplyPos : 0 < pool.reserves.supply.val)
      (priced : pricedDeposit cap pool now amountA amountB = .ok minted)
      (enough : minimum ≤ (minted : Int)) (exceeds : 2 ^ 64 ≤ pool.reserves.supply.val + minted) :
      DepositEnding cap pool now amountA amountB minimum
        (.error (.calculation (.deposit amountA amountB)))
  | deposited {minted : Nat} {next : Reserves} (nonzero : ¬(amountA = 0 ∧ amountB = 0))
      (supplyPos : 0 < pool.reserves.supply.val)
      (priced : pricedDeposit cap pool now amountA amountB = .ok minted)
      (enough : minimum ≤ (minted : Int)) (isA : (next.a.val : Int) = pool.reserves.a.val + amountA)
      (isB : (next.b.val : Int) = pool.reserves.b.val + amountB)
      (isSupply : next.supply.val = pool.reserves.supply.val + minted) :
      DepositEnding cap pool now amountA amountB minimum (.ok (some ⟨minted, next⟩))

theorem DepositEnding.outcome {x : Except QuoteError (Option Deposit)}
    (ending : DepositEnding cap pool now amountA amountB minimum x) :
    (deposit cap pool now amountA amountB minimum).outcome = x := by
  simp only [deposit, Traced.outcome_bind, Traced.outcome_ite, Traced.outcome_throw, error_bind,
    Traced.outcome_log, ok_bind, Traced.outcome_pure]
  cases ending with
  | nothing zero => rw [if_pos zero]
  | empty nonzero noSupply => rw [if_neg nonzero, if_pos noSupply]
  | failed nonzero supplyPos failed =>
    rw [if_neg nonzero, if_neg (by omega), attempt_failed failed]
    rfl
  | short nonzero supplyPos priced less =>
    rw [if_neg nonzero, if_neg (by omega), outcome_attempt.mpr priced, ok_bind,
      requireAtLeast_short less]
    rfl
  | overflow nonzero supplyPos priced enough exceeds =>
    rw [if_neg nonzero, if_neg (by omega), outcome_attempt.mpr priced, ok_bind,
      requireAtLeast_ok enough, ok_bind, compute_of_caught (newReserves_caught priced)]
    · rfl
    · intro stored
      simp only [ne_eq, bind_eq_ok, Word.ofInt_eq_ok, Word.add_eq_ok, Word.narrow_eq_ok]
      rintro ⟨_, -, _, -, _, -, _, -, _, -, _, -, supply, isSupply, sum, isSum, _, ⟨-, fits⟩, -⟩
      omega
  | @deposited minted next nonzero supplyPos priced enough isA isB isSupply =>
    obtain ⟨oldA, isOldA⟩ := pool.reserves.a.exists_word
    obtain ⟨oldB, isOldB⟩ := pool.reserves.b.exists_word
    obtain ⟨oldSupply, isOldSupply⟩ := pool.reserves.supply.exists_word
    obtain ⟨newA, isNewA⟩ := next.a.exists_word
    obtain ⟨newB, isNewB⟩ := next.b.exists_word
    obtain ⟨newSupply, isNewSupply⟩ := next.supply.exists_word
    have aFits := next.a.lt
    have bFits := next.b.lt
    have supplyFits := next.supply.lt
    rw [if_neg nonzero, if_neg (by omega), outcome_attempt.mpr priced, ok_bind,
      requireAtLeast_ok enough, ok_bind, bind_eq_ok]
    refine ⟨(newA.val, newB.val, newSupply.val), outcome_compute.mpr ?_, ?_⟩
    · simp only [bind_eq_ok, Word.ofInt_eq_ok, Word.add_eq_ok, Word.narrow_eq_ok, pure_eq_ok]
      exact ⟨oldA, by omega, newA, by omega, _, ⟨rfl, by omega⟩, oldB, by omega, newB, by omega, _,
        ⟨rfl, by omega⟩, oldSupply, by omega, newSupply, by omega, _, ⟨rfl, by omega⟩, rfl⟩
    · have stored : Reserves.read newA.val newB.val newSupply.val = .ok next :=
        Reserves.read_eq_ok.mpr ⟨by omega, by omega, by omega⟩
      rw [outcome_store.mpr stored, ok_bind]

theorem exists_depositEnding (cap : Nat) (pool : Pool) (now amountA amountB minimum : Int) :
    ∃ x, DepositEnding cap pool now amountA amountB minimum x := by
  by_cases zero : amountA = 0 ∧ amountB = 0
  · exact ⟨_, .nothing zero⟩
  · obtain noSupply | supplyPos := Nat.eq_zero_or_pos pool.reserves.supply.val
    · exact ⟨_, .empty zero noSupply⟩
    · cases priced : pricedDeposit cap pool now amountA amountB with
      | error fault => exact ⟨_, .failed zero supplyPos priced⟩
      | ok minted =>
        obtain less | enough := lt_or_ge (minted : Int) minimum
        · exact ⟨_, .short zero supplyPos priced less⟩
        · obtain fits | exceeds := Nat.lt_or_ge (pool.reserves.supply.val + minted) (2 ^ 64)
          · obtain ⟨d0, d1, growth, -⟩ := Exchange.growth_of_mintForDeposit priced
            obtain ⟨aNonneg, bNonneg, -, -, newAFits, newBFits, -⟩ := growth
            obtain ⟨next, isA, isB, isSupply⟩ := Reserves.exists_read
              (a := pool.reserves.a.val + amountA) (b := pool.reserves.b.val + amountB)
              (s := pool.reserves.supply.val + minted) (by omega) (by omega) (by omega)
            exact ⟨_, .deposited zero supplyPos priced enough isA isB (by omega)⟩
          · exact ⟨_, .overflow zero supplyPos priced enough exceeds⟩

end Deposit

/-! ## Withdrawals in both assets -/

section Withdraw

variable {burned minimumA minimumB : Int}

/-- A withdrawal in both assets moves `a` of the one and `b` of the other. -/
def PricedShares (pool : Pool) (burned : Int) (a b : Exchange.ShareAmounts) : Prop :=
  Exchange.withdrawShare pool.fees burned pool.reserves.supply.val pool.reserves.a.val = .ok a ∧
    Exchange.withdrawShare pool.fees burned pool.reserves.supply.val pool.reserves.b.val = .ok b

theorem withdrawBoth_eq_ok {a b : Exchange.ShareAmounts} :
    Exchange.withdrawBoth pool.fees burned pool.reserves.supply.val pool.reserves.a.val
      pool.reserves.b.val = .ok (a, b) ↔ PricedShares pool burned a b := by
  simp only [Exchange.withdrawBoth, bind_eq_ok, pure_eq_ok, Prod.mk.injEq]
  constructor
  · rintro ⟨_, pricedA, _, pricedB, rfl, rfl⟩
    exact ⟨pricedA, pricedB⟩
  · rintro ⟨pricedA, pricedB⟩
    exact ⟨a, pricedA, b, pricedB, rfl, rfl⟩

def Burnable (pool : Pool) (burned : Int) : Prop :=
  0 < pool.reserves.supply.val ∧ burned ≤ pool.reserves.supply.val

theorem PricedShares.burned_nonneg {a b : Exchange.ShareAmounts} (priced : PricedShares pool burned a b) :
    0 ≤ burned := by
  obtain ⟨isShare, -⟩ := Exchange.withdrawShare_spec priced.1
  obtain ⟨-, ⟨nonneg, -⟩, -⟩ := mulDiv_eq_ok.mp isShare
  exact nonneg

theorem remainders_caught {a b : Exchange.ShareAmounts} (burnable : Burnable pool burned)
    (priced : PricedShares pool burned a b) :
    Caught (do
      let newA ← (← (← Word.ofInt pool.reserves.a.val).sub a.amount).sub a.adminFee
      let newB ← (← (← Word.ofInt pool.reserves.b.val).sub b.amount).sub b.adminFee
      let newSupply ← (← Word.ofInt pool.reserves.supply.val).sub burned
      return (newA, newB, newSupply) : Except Fault (Word × Word × Word)) := by
  obtain ⟨aFits, adminAFits⟩ := Exchange.withdrawShare_fits priced.1
  obtain ⟨bFits, adminBFits⟩ := Exchange.withdrawShare_fits priced.2
  have burnedBrief : Text.Brief burned :=
    .of_lt (by have := priced.burned_nonneg; have := burnable.2; have := pool.reserves.supply.lt; omega)
  exact (Word.ofInt_caught pool.reserves.a.isWritable).andThen fun w =>
    (w.sub_caught (.nat (by omega))).andThen fun left => (left.sub_caught (.nat (by omega))).andThen fun _ =>
    (Word.ofInt_caught pool.reserves.b.isWritable).andThen fun w =>
    (w.sub_caught (.nat (by omega))).andThen fun left => (left.sub_caught (.nat (by omega))).andThen fun _ =>
    (Word.ofInt_caught pool.reserves.supply.isWritable).andThen fun w =>
    (w.sub_caught burnedBrief).andThen fun _ => .pure trivial

inductive WithdrawEnding (pool : Pool) (burned minimumA minimumB : Int) :
    Except QuoteError (Option Withdrawal) → Prop where
  | nothing (zero : burned = 0) : WithdrawEnding pool burned minimumA minimumB (.ok none)
  | empty (nonzero : burned ≠ 0) (noSupply : pool.reserves.supply.val = 0) :
      WithdrawEnding pool burned minimumA minimumB (.error .withdrawFromEmpty)
  | overBurn (nonzero : burned ≠ 0) (supplyPos : 0 < pool.reserves.supply.val)
      (exceeds : (pool.reserves.supply.val : Int) < burned) :
      WithdrawEnding pool burned minimumA minimumB
        (.error (QuoteError.overBurn burned pool.reserves.supply.val).told)
  | failed {fault : Fault} (nonzero : burned ≠ 0) (burnable : Burnable pool burned)
      (failed : Exchange.withdrawBoth pool.fees burned pool.reserves.supply.val pool.reserves.a.val
        pool.reserves.b.val = .error fault) :
      WithdrawEnding pool burned minimumA minimumB (.error (.ofFault (.withdraw burned) fault))
  | shortA {a b : Exchange.ShareAmounts} (nonzero : burned ≠ 0) (burnable : Burnable pool burned)
      (priced : PricedShares pool burned a b) (less : (a.amount : Int) < minimumA) :
      WithdrawEnding pool burned minimumA minimumB
        (.error (QuoteError.slippage minimumA a.amount).told)
  | shortB {a b : Exchange.ShareAmounts} (nonzero : burned ≠ 0) (burnable : Burnable pool burned)
      (priced : PricedShares pool burned a b) (enough : minimumA ≤ (a.amount : Int))
      (less : (b.amount : Int) < minimumB) :
      WithdrawEnding pool burned minimumA minimumB
        (.error (QuoteError.slippage minimumB b.amount).told)
  | unbacked {a b : Exchange.ShareAmounts} (nonzero : burned ≠ 0) (burnable : Burnable pool burned)
      (priced : PricedShares pool burned a b) (enoughA : minimumA ≤ (a.amount : Int))
      (enoughB : minimumB ≤ (b.amount : Int))
      (lacks : pool.reserves.a.val < a.amount + a.adminFee ∨
        pool.reserves.b.val < b.amount + b.adminFee) :
      WithdrawEnding pool burned minimumA minimumB (.error (.calculation (.withdraw burned)))
  | withdrawn {a b : Exchange.ShareAmounts} {next : Reserves} (nonzero : burned ≠ 0)
      (burnable : Burnable pool burned) (priced : PricedShares pool burned a b)
      (enoughA : minimumA ≤ (a.amount : Int)) (enoughB : minimumB ≤ (b.amount : Int))
      (isA : pool.reserves.a.val = next.a.val + a.amount + a.adminFee)
      (isB : pool.reserves.b.val = next.b.val + b.amount + b.adminFee)
      (isSupply : (pool.reserves.supply.val : Int) = next.supply.val + burned) :
      WithdrawEnding pool burned minimumA minimumB (.ok (some ⟨burned, a, b, next⟩))

theorem WithdrawEnding.outcome {x : Except QuoteError (Option Withdrawal)}
    (ending : WithdrawEnding pool burned minimumA minimumB x) :
    (withdraw pool burned minimumA minimumB).outcome = x := by
  simp only [withdraw, Traced.outcome_bind, Traced.outcome_ite, Traced.outcome_log, ok_bind,
    Traced.outcome_pure]
  cases ending with
  | nothing zero => rw [if_pos zero]
  | empty nonzero noSupply =>
    rw [if_neg nonzero, requireBurnable_empty noSupply]
    rfl
  | overBurn nonzero supplyPos exceeds =>
    rw [if_neg nonzero, requireBurnable_exceeds supplyPos exceeds]
    rfl
  | failed nonzero burnable failed =>
    rw [if_neg nonzero, requireBurnable_ok burnable, ok_bind, compute_failed failed]
    rfl
  | shortA nonzero burnable priced less =>
    rw [if_neg nonzero, requireBurnable_ok burnable, ok_bind, outcome_compute.mpr (withdrawBoth_eq_ok.mpr priced), ok_bind,
      requireAtLeast_short less]
    rfl
  | shortB nonzero burnable priced enough less =>
    rw [if_neg nonzero, requireBurnable_ok burnable, ok_bind, outcome_compute.mpr (withdrawBoth_eq_ok.mpr priced), ok_bind,
      requireAtLeast_ok enough, ok_bind, requireAtLeast_short less]
    rfl
  | unbacked nonzero burnable priced enoughA enoughB lacks =>
    rw [if_neg nonzero, requireBurnable_ok burnable, ok_bind, outcome_compute.mpr (withdrawBoth_eq_ok.mpr priced), ok_bind,
      requireAtLeast_ok enoughA, ok_bind, requireAtLeast_ok enoughB, ok_bind,
      compute_of_caught (remainders_caught burnable priced)]
    · rfl
    · intro stored
      simp only [ne_eq, bind_eq_ok, Word.ofInt_eq_ok, Word.sub_eq_ok]
      rintro ⟨reserveA, isReserveA, paidA, isPaidA, leftA, isLeftA, reserveB, isReserveB, paidB,
        isPaidB, leftB, isLeftB, -⟩
      omega
  | @withdrawn a b next nonzero burnable priced enoughA enoughB isA isB isSupply =>
    obtain ⟨oldA, isOldA⟩ := pool.reserves.a.exists_word
    obtain ⟨oldB, isOldB⟩ := pool.reserves.b.exists_word
    obtain ⟨oldSupply, isOldSupply⟩ := pool.reserves.supply.exists_word
    obtain ⟨newA, isNewA⟩ := next.a.exists_word
    obtain ⟨newB, isNewB⟩ := next.b.exists_word
    obtain ⟨newSupply, isNewSupply⟩ := next.supply.exists_word
    obtain ⟨paidA, isPaidA⟩ := Word.exists_val_eq (z := next.a.val + a.adminFee) (by omega)
      (by have := oldA.lt; omega)
    obtain ⟨paidB, isPaidB⟩ := Word.exists_val_eq (z := next.b.val + b.adminFee) (by omega)
      (by have := oldB.lt; omega)
    rw [if_neg nonzero, requireBurnable_ok burnable, ok_bind,
      outcome_compute.mpr (withdrawBoth_eq_ok.mpr priced), ok_bind, requireAtLeast_ok enoughA, ok_bind,
      requireAtLeast_ok enoughB, ok_bind, bind_eq_ok]
    refine ⟨(newA, newB, newSupply), outcome_compute.mpr ?_, ?_⟩
    · simp only [bind_eq_ok, Word.ofInt_eq_ok, Word.sub_eq_ok, pure_eq_ok]
      exact ⟨oldA, by omega, paidA, by omega, newA, by omega, oldB, by omega, paidB, by omega, newB,
        by omega, oldSupply, by omega, newSupply, by omega, rfl⟩
    · have stored : Reserves.read newA newB newSupply = .ok next :=
        Reserves.read_eq_ok.mpr ⟨by omega, by omega, by omega⟩
      rw [outcome_store.mpr stored, ok_bind]

theorem exists_withdrawEnding (pool : Pool) (burned minimumA minimumB : Int) :
    ∃ x, WithdrawEnding pool burned minimumA minimumB x := by
  by_cases zero : burned = 0
  · exact ⟨_, .nothing zero⟩
  · obtain noSupply | supplyPos := Nat.eq_zero_or_pos pool.reserves.supply.val
    · exact ⟨_, .empty zero noSupply⟩
    · obtain exceeds | atMost := lt_or_ge (pool.reserves.supply.val : Int) burned
      · exact ⟨_, .overBurn zero supplyPos exceeds⟩
      · have burnable : Burnable pool burned := ⟨supplyPos, atMost⟩
        cases price : Exchange.withdrawBoth pool.fees burned pool.reserves.supply.val pool.reserves.a.val
          pool.reserves.b.val with
        | error fault => exact ⟨_, .failed zero burnable price⟩
        | ok shares =>
          obtain ⟨a, b⟩ := shares
          have priced := withdrawBoth_eq_ok.mp price
          obtain lessA | enoughA := lt_or_ge (a.amount : Int) minimumA
          · exact ⟨_, .shortA zero burnable priced lessA⟩
          · obtain lessB | enoughB := lt_or_ge (b.amount : Int) minimumB
            · exact ⟨_, .shortB zero burnable priced enoughA lessB⟩
            · by_cases lacks : pool.reserves.a.val < a.amount + a.adminFee ∨
                pool.reserves.b.val < b.amount + b.adminFee
              · exact ⟨_, .unbacked zero burnable priced enoughA enoughB lacks⟩
              · have aFits := pool.reserves.a.lt
                have bFits := pool.reserves.b.lt
                have supplyFits := pool.reserves.supply.lt
                have burnedNonneg := priced.burned_nonneg
                obtain ⟨next, isA, isB, isSupply⟩ := Reserves.exists_read
                  (a := pool.reserves.a.val - a.amount - a.adminFee)
                  (b := pool.reserves.b.val - b.amount - b.adminFee)
                  (s := pool.reserves.supply.val - burned) (by omega) (by omega) (by omega)
                exact ⟨.ok (some ⟨burned, a, b, next⟩), .withdrawn zero burnable priced enoughA enoughB
                  (by omega) (by omega) (by omega)⟩

end Withdraw

/-! ## Withdrawals in one asset -/

section WithdrawOne

variable {burned : Int} {base : Asset} {w : Exchange.Withdrawal} {withdrawFee amount : Nat}

def pricedOne (cap : Nat) (pool : Pool) (now burned : Int) (base : Asset) :
    Except Fault Exchange.Withdrawal :=
  (Exchange.withdrawOne cap pool.fees (pool.ramp.factor now) burned pool.reserves.supply.val
    (pool.reserves.get base).val (pool.reserves.get base.other).val).outcome

/-- A withdrawal in one asset pays `amount` after the withdraw fee. -/
structure Charged (cap : Nat) (pool : Pool) (now burned : Int) (base : Asset)
    (w : Exchange.Withdrawal) (withdrawFee amount : Nat) : Prop where
  priced : pricedOne cap pool now burned base = .ok w
  charged : pool.fees.withdrawFee w.dy = .ok withdrawFee
  isAmount : w.dy = amount + withdrawFee

theorem Charged.computed (charged : Charged cap pool now burned base w withdrawFee amount) :
    (do
      let withdrawFee ← pool.fees.withdrawFee w.dy
      let amount ← (← Word.ofInt w.dy).sub withdrawFee
      return (withdrawFee, amount.val) : Except Fault (Nat × Nat)) = .ok (withdrawFee, amount) := by
  obtain ⟨priced, charge, isAmount⟩ := charged
  obtain ⟨-, adjustedY, baseFee, newY, isBase, -⟩ := Exchange.withdrawOne_spec priced
  have baseFits := (pool.reserves.get base).lt
  obtain ⟨dy, isDy⟩ := Word.exists_val_eq (z := w.dy) (by omega) (by omega)
  obtain ⟨paid, isPaid⟩ := Word.exists_val_eq (z := amount) (by omega) (by omega)
  simp only [bind_eq_ok, Word.ofInt_eq_ok, Word.sub_eq_ok, pure_eq_ok, Prod.mk.injEq]
  exact ⟨withdrawFee, charge, dy, isDy, paid, by omega, rfl, by omega⟩

theorem Charged.burned_nonneg (charged : Charged cap pool now burned base w withdrawFee amount) :
    0 ≤ burned := by
  have priced := charged.priced
  simp only [pricedOne, Exchange.withdrawOne, Traced.outcome_bind, Traced.outcome_liftM, bind_eq_ok,
    Word.ofInt_eq_ok] at priced
  obtain ⟨d0, -, whole, isWhole, -⟩ := priced
  omega

/-- What a withdrawal pays and keeps is less than the reserve. -/
theorem pricedOne_fits (priced : pricedOne cap pool now burned base = .ok w) :
    w.dy < 2 ^ 64 ∧ w.fee < 2 ^ 64 := by
  obtain ⟨-, adjustedY, baseFee, newY, isBase, isBase'⟩ := Exchange.withdrawOne_spec priced
  have baseFits := (pool.reserves.get base).lt
  omega

theorem withdrawFee_caught (priced : pricedOne cap pool now burned base = .ok w) :
    Caught (do
      let withdrawFee ← pool.fees.withdrawFee w.dy
      let amount ← (← Word.ofInt w.dy).sub withdrawFee
      return (withdrawFee, amount.val) : Except Fault (Nat × Nat)) := by
  obtain ⟨dyFits, -⟩ := pricedOne_fits priced
  have dyWritable : Text.isWritable w.dy = true := (Text.isWritable_nat (by omega))
  exact (pool.fees.withdraw.share_caught dyWritable).bind fun fee feeFits =>
    (Word.ofInt_caught dyWritable).andThen fun dy => (dy.sub_caught (.nat (by omega))).andThen fun _ =>
    .pure trivial

theorem Charged.adminFee_caught (charged : Charged cap pool now burned base w withdrawFee amount)
    (burnable : Burnable pool burned) :
    Caught (do
      let adminTrade ← pool.fees.adminTradeFee w.fee
      let adminWithdraw ← pool.fees.adminWithdrawFee withdrawFee
      let adminFee ← (← (← Word.ofInt adminTrade).add adminWithdraw).narrow
      let newBase ← (← (← Word.ofInt (pool.reserves.get base).val).sub amount).sub adminFee
      let newSupply ← (← Word.ofInt pool.reserves.supply.val).sub burned
      return (adminFee, newBase, newSupply) : Except Fault (Nat × Word × Word)) := by
  obtain ⟨dyFits, feeFits⟩ := pricedOne_fits charged.priced
  have isAmount := charged.isAmount
  have burnedBrief : Text.Brief burned :=
    .of_lt (by have := charged.burned_nonneg; have := burnable.2; have := pool.reserves.supply.lt; omega)
  exact (pool.fees.adminTrade.share_caught (Text.isWritable_nat (by omega))).bind fun _ tradeFits =>
    (pool.fees.adminWithdraw.share_caught (Text.isWritable_nat (by omega))).bind fun _ withdrawFits =>
    (Word.ofInt_caught (Text.isWritable_nat (by omega))).andThen fun w =>
    (w.add_caught (.nat (by omega))).andThen fun both => both.narrow_caught.bind fun _ bothFits =>
    (Word.ofInt_caught (pool.reserves.get base).isWritable).andThen fun w =>
    (w.sub_caught (.nat (by omega))).andThen fun left => (left.sub_caught (.nat (by omega))).andThen fun _ =>
    (Word.ofInt_caught pool.reserves.supply.isWritable).andThen fun w =>
    (w.sub_caught burnedBrief).andThen fun _ => .pure trivial

/-- The administrator gets `adminFee` of the fees of a withdrawal in one asset. -/
def AdminFee (fees : Fees) (tradeFee withdrawFee adminFee : Nat) : Prop :=
  ∃ adminTrade adminWithdraw : Nat, fees.adminTradeFee tradeFee = .ok adminTrade ∧
    fees.adminWithdrawFee withdrawFee = .ok adminWithdraw ∧ adminFee = adminTrade + adminWithdraw

inductive WithdrawOneEnding (cap : Nat) (pool : Pool) (now burned minimum : Int) (base : Asset) :
    Except QuoteError (Option OneWithdrawal) → Prop where
  | nothing (zero : burned = 0) : WithdrawOneEnding cap pool now burned minimum base (.ok none)
  | empty (nonzero : burned ≠ 0) (noSupply : pool.reserves.supply.val = 0) :
      WithdrawOneEnding cap pool now burned minimum base (.error .withdrawFromEmpty)
  | overBurn (nonzero : burned ≠ 0) (supplyPos : 0 < pool.reserves.supply.val)
      (exceeds : (pool.reserves.supply.val : Int) < burned) :
      WithdrawOneEnding cap pool now burned minimum base
        (.error (QuoteError.overBurn burned pool.reserves.supply.val).told)
  | failed {fault : Fault} (nonzero : burned ≠ 0) (burnable : Burnable pool burned)
      (failed : pricedOne cap pool now burned base = .error fault) :
      WithdrawOneEnding cap pool now burned minimum base
        (.error (.ofFault (.withdrawOne burned base) fault))
  | uncharged {w : Exchange.Withdrawal} (nonzero : burned ≠ 0) (burnable : Burnable pool burned)
      (priced : pricedOne cap pool now burned base = .ok w)
      (uncharged : ∀ withdrawFee amount, ¬Charged cap pool now burned base w withdrawFee amount) :
      WithdrawOneEnding cap pool now burned minimum base
        (.error (.calculation (.withdrawOne burned base)))
  | short {w : Exchange.Withdrawal} {withdrawFee amount : Nat} (nonzero : burned ≠ 0)
      (burnable : Burnable pool burned)
      (charged : Charged cap pool now burned base w withdrawFee amount)
      (less : (amount : Int) < minimum) :
      WithdrawOneEnding cap pool now burned minimum base
        (.error (QuoteError.slippage minimum amount).told)
  | unbacked {w : Exchange.Withdrawal} {withdrawFee amount : Nat} (nonzero : burned ≠ 0)
      (burnable : Burnable pool burned)
      (charged : Charged cap pool now burned base w withdrawFee amount)
      (enough : minimum ≤ (amount : Int))
      (lacks : ∀ adminFee, AdminFee pool.fees w.fee withdrawFee adminFee →
        (pool.reserves.get base).val < amount + adminFee) :
      WithdrawOneEnding cap pool now burned minimum base
        (.error (.calculation (.withdrawOne burned base)))
  | withdrawn {w : Exchange.Withdrawal} {withdrawFee amount adminFee : Nat} {next : Reserves}
      (nonzero : burned ≠ 0) (burnable : Burnable pool burned)
      (charged : Charged cap pool now burned base w withdrawFee amount)
      (enough : minimum ≤ (amount : Int)) (isAdminFee : AdminFee pool.fees w.fee withdrawFee adminFee)
      (isBase : (pool.reserves.get base).val = (next.get base).val + amount + adminFee)
      (sameOther : next.get base.other = pool.reserves.get base.other)
      (isSupply : (pool.reserves.supply.val : Int) = next.supply.val + burned) :
      WithdrawOneEnding cap pool now burned minimum base
        (.ok (some ⟨base, burned, amount, w.fee, withdrawFee, adminFee, next⟩))

theorem WithdrawOneEnding.outcome {x : Except QuoteError (Option OneWithdrawal)}
    (ending : WithdrawOneEnding cap pool now burned minimum base x) :
    (withdrawOne cap pool now burned minimum base).outcome = x := by
  simp only [withdrawOne, Traced.outcome_bind, Traced.outcome_ite, Traced.outcome_log, ok_bind,
    Traced.outcome_pure]
  cases ending with
  | nothing zero => rw [if_pos zero]
  | empty nonzero noSupply =>
    rw [if_neg nonzero, requireBurnable_empty noSupply]
    rfl
  | overBurn nonzero supplyPos exceeds =>
    rw [if_neg nonzero, requireBurnable_exceeds supplyPos exceeds]
    rfl
  | failed nonzero burnable failed =>
    rw [if_neg nonzero, requireBurnable_ok burnable, ok_bind, attempt_failed failed]
    rfl
  | uncharged nonzero burnable priced uncharged =>
    rw [if_neg nonzero, requireBurnable_ok burnable, ok_bind, outcome_attempt.mpr priced, ok_bind,
      compute_of_caught (withdrawFee_caught priced)]
    · rfl
    · rintro ⟨withdrawFee, amount⟩
      simp only [ne_eq, bind_eq_ok, Word.ofInt_eq_ok, Word.sub_eq_ok, pure_eq_ok, Prod.mk.injEq]
      rintro ⟨_, charged, dy, isDy, left, isLeft, rfl, -⟩
      exact uncharged _ left.val ⟨priced, charged, by omega⟩
  | short nonzero burnable charged less =>
    rw [if_neg nonzero, requireBurnable_ok burnable, ok_bind, outcome_attempt.mpr charged.priced,
      ok_bind, outcome_compute.mpr charged.computed, ok_bind, requireAtLeast_short less]
    rfl
  | unbacked nonzero burnable charged enough lacks =>
    rw [if_neg nonzero, requireBurnable_ok burnable, ok_bind, outcome_attempt.mpr charged.priced,
      ok_bind, outcome_compute.mpr charged.computed, ok_bind, requireAtLeast_ok enough, ok_bind,
      compute_of_caught (charged.adminFee_caught burnable)]
    · rfl
    · intro stored
      simp only [ne_eq, bind_eq_ok, Word.ofInt_eq_ok, Word.add_eq_ok, Word.sub_eq_ok, Word.narrow_eq_ok]
      rintro ⟨adminTrade, chargedTrade, adminWithdraw, chargedWithdraw, first, isFirst, both, isBoth, _,
        ⟨rfl, -⟩, reserve, isReserve, paid, isPaid, left, isLeft, -⟩
      have := lacks _ ⟨adminTrade, adminWithdraw, chargedTrade, chargedWithdraw, rfl⟩
      omega
  | @withdrawn w withdrawFee amount adminFee next nonzero burnable charged enough isAdminFee isBase
      sameOther isSupply =>
    rw [if_neg nonzero, requireBurnable_ok burnable, ok_bind, outcome_attempt.mpr charged.priced,
      ok_bind, outcome_compute.mpr charged.computed, ok_bind, requireAtLeast_ok enough, ok_bind,
      bind_eq_ok]
    obtain ⟨adminTrade, adminWithdraw, chargedTrade, chargedWithdraw, rfl⟩ := isAdminFee
    have baseFits := (pool.reserves.get base).lt
    obtain ⟨first, isFirst⟩ := Word.exists_val_eq (z := adminTrade) (by omega) (by omega)
    obtain ⟨both, isBoth⟩ := Word.exists_val_eq (z := adminTrade + adminWithdraw) (by omega) (by omega)
    obtain ⟨oldBase, isOldBase⟩ := (pool.reserves.get base).exists_word
    obtain ⟨newBase, isNewBase⟩ := (next.get base).exists_word
    obtain ⟨oldSupply, isOldSupply⟩ := pool.reserves.supply.exists_word
    obtain ⟨newSupply, isNewSupply⟩ := next.supply.exists_word
    obtain ⟨paid, isPaid⟩ := Word.exists_val_eq (z := newBase.val + (adminTrade + adminWithdraw))
      (by omega) (by omega)
    refine ⟨(adminTrade + adminWithdraw, newBase, newSupply), outcome_compute.mpr ?_, ?_⟩
    · simp only [bind_eq_ok, Word.ofInt_eq_ok, Word.add_eq_ok, Word.sub_eq_ok, Word.narrow_eq_ok,
        pure_eq_ok, Prod.mk.injEq]
      exact ⟨adminTrade, chargedTrade, adminWithdraw, chargedWithdraw, first, isFirst, both, by omega, _,
        ⟨rfl, by omega⟩, oldBase, by omega, paid, by omega, newBase, by omega, oldSupply, by omega,
        newSupply, by omega, by omega, rfl, rfl⟩
    · -- the base reserve is stored first, beside the old supply
      obtain ⟨moved, isMoved, movedOther, movedSupply⟩ := pool.reserves.exists_set base
        (z := newBase.val) (by omega) (by omega)
      have same : ∀ asset, next.get asset = moved.get asset :=
        base.forall_of_other (Amount.ext (by omega)) (by rw [sameOther, movedOther])
      rw [outcome_store.mpr (Reserves.set_eq_ok.mpr ⟨isMoved, movedOther, movedSupply⟩), ok_bind,
        outcome_store.mpr (Reserves.setSupply_eq_ok.mpr ⟨same, isNewSupply.symm ▸ rfl⟩), ok_bind]

theorem exists_withdrawOneEnding (cap : Nat) (pool : Pool) (now burned minimum : Int) (base : Asset) :
    ∃ x, WithdrawOneEnding cap pool now burned minimum base x := by
  by_cases zero : burned = 0
  · exact ⟨_, .nothing zero⟩
  · obtain noSupply | supplyPos := Nat.eq_zero_or_pos pool.reserves.supply.val
    · exact ⟨_, .empty zero noSupply⟩
    · obtain exceeds | atMost := lt_or_ge (pool.reserves.supply.val : Int) burned
      · exact ⟨_, .overBurn zero supplyPos exceeds⟩
      · have burnable : Burnable pool burned := ⟨supplyPos, atMost⟩
        cases priced : pricedOne cap pool now burned base with
        | error fault => exact ⟨_, .failed zero burnable priced⟩
        | ok w =>
          by_cases charge : ∃ withdrawFee amount, Charged cap pool now burned base w withdrawFee amount
          case neg => exact ⟨_, .uncharged zero burnable priced (by simpa only [not_exists] using charge)⟩
          obtain ⟨withdrawFee, amount, charged⟩ := charge
          obtain less | enough := lt_or_ge (amount : Int) minimum
          · exact ⟨_, .short zero burnable charged less⟩
          · by_cases covered : ∃ adminFee, AdminFee pool.fees w.fee withdrawFee adminFee ∧
              amount + adminFee ≤ (pool.reserves.get base).val
            · obtain ⟨adminFee, isAdminFee, atMost'⟩ := covered
              have baseFits := (pool.reserves.get base).lt
              have supplyFits := pool.reserves.supply.lt
              have burnedNonneg := charged.burned_nonneg
              obtain ⟨moved, isMoved, movedOther, movedSupply⟩ := pool.reserves.exists_set base
                (z := (pool.reserves.get base).val - (amount + adminFee)) (by omega) (by omega)
              obtain ⟨next, same, isSupply⟩ := moved.exists_setSupply
                (z := pool.reserves.supply.val - burned) (by omega) (by omega)
              have isBase : (pool.reserves.get base).val = (next.get base).val + amount + adminFee := by
                rw [same]
                omega
              have sameOther : next.get base.other = pool.reserves.get base.other := by
                rw [same, movedOther]
              exact ⟨_, .withdrawn zero burnable charged enough isAdminFee isBase sameOther (by omega)⟩
            · refine ⟨_, .unbacked zero burnable charged enough ?_⟩
              intro adminFee isAdminFee
              by_contra covers
              exact covered ⟨adminFee, isAdminFee, by omega⟩

end WithdrawOne

end Quote

end PegPool
