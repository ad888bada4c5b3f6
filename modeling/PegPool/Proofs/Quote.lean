import PegPool.Proofs.Word.Exact
import PegPool.Quote

/-!
# What a quote consists of

A quote is an amount calculation followed by the new reserves.  For each of the five operations the
lemma of its name says which calculation succeeded, and what the new reserves are.
-/

namespace PegPool

theorem Amount.ofNat?_eq_some {n : Nat} {amount : Amount} :
    Amount.ofNat? n = some amount ↔ amount.val = n := by
  have fits := amount.lt
  unfold ofNat?
  split
  · simp only [Option.some.injEq, Amount.ext_iff]
    omega
  · simp only [reduceCtorEq, false_iff]
    omega

theorem Amount.read_eq_ok {field : String} {z : Int} {amount : Amount} :
    Amount.read field (.int z) = .ok amount ↔ (amount.val : Int) = z := by
  simp only [Amount.read]
  split
  · simp only [reduceCtorEq, false_iff]
    omega
  · cases stored : Amount.ofNat? z.toNat with
    | some other =>
      have isNumber := Amount.ofNat?_eq_some.mp stored
      simp only [Except.ok.injEq, Amount.ext_iff]
      omega
    | none =>
      simp only [reduceCtorEq, false_iff]
      intro isNumber
      have := Amount.ofNat?_eq_some.mpr (show amount.val = z.toNat by omega)
      rw [stored] at this
      cases this

namespace Reserves

variable {r next : Reserves}

theorem read_eq_ok {a b supply : Int} :
    read (.int a) (.int b) (.int supply) = .ok next ↔
      (next.a.val : Int) = a ∧ (next.b.val : Int) = b ∧ (next.supply.val : Int) = supply := by
  simp only [read, bind_eq_ok, Amount.read_eq_ok, pure_eq_ok]
  constructor
  · rintro ⟨_, isA, _, isB, _, isSupply, rfl⟩
    exact ⟨isA, isB, isSupply⟩
  · rintro ⟨isA, isB, isSupply⟩
    exact ⟨_, isA, _, isB, _, isSupply, rfl⟩

theorem set_eq_ok {asset : Asset} {value : Int} : r.set asset value = .ok next ↔
    ((next.get asset).val : Int) = value ∧ next.get asset.other = r.get asset.other ∧
      next.supply = r.supply := by
  cases asset with
  | a =>
    simp only [set, read_eq_ok, get, Asset.other, Amount.ext_iff]
    omega
  | b =>
    simp only [set, read_eq_ok, get, Asset.other, Amount.ext_iff]
    omega

theorem setSupply_eq_ok {supply : Int} : r.setSupply supply = .ok next ↔
    (∀ asset, next.get asset = r.get asset) ∧ (next.supply.val : Int) = supply := by
  simp only [setSupply, read_eq_ok]
  constructor
  · rintro ⟨isA, isB, isSupply⟩
    refine ⟨?_, isSupply⟩
    intro asset
    cases asset with
    | a => exact Amount.ext (by simp only [get]; omega)
    | b => exact Amount.ext (by simp only [get]; omega)
  · rintro ⟨same, isSupply⟩
    have isA := same .a
    have isB := same .b
    simp only [get] at isA isB
    rw [isA, isB]
    exact ⟨rfl, rfl, isSupply⟩

end Reserves

namespace Quote

/-! ## Steps of a quote -/

section Outcomes

variable {α : Type} {operation : Operation} {value : α}

theorem outcome_attempt {x : Traced Fault α} :
    (attempt operation x).outcome = .ok value ↔ x.outcome = .ok value := by
  unfold attempt
  cases x.outcome with
  | ok a => simp only [Except.ok.injEq]
  | error fault => simp only [reduceCtorEq]

theorem outcome_compute {x : Except Fault α} :
    (compute operation x).outcome = .ok value ↔ x = .ok value :=
  outcome_attempt

theorem outcome_store {x : Except FieldError Reserves} {r : Reserves} :
    (store x).outcome = .ok r ↔ x = .ok r :=
  mapError_eq_ok

theorem outcome_requireBurnable {burned : Int} {supply : Nat} {u : Unit} :
    (requireBurnable burned supply).outcome = .ok u ↔ 0 < supply ∧ burned ≤ supply := by
  unfold requireBurnable
  split
  · simp only [Traced.outcome_fail, reduceCtorEq, false_iff]
    omega
  · split
    · simp only [Traced.outcome_fail, reduceCtorEq, false_iff]
      omega
    · simp only [Traced.ok, true_iff]
      omega

end Outcomes

/-! ## The five operations -/

variable {cap : Nat} {pool : Pool}

theorem found_spec {policy : RampPolicy} {amp reserveA reserveB : Int} {q : Founding}
    (quoted : (found cap policy amp reserveA reserveB).outcome = .ok q) :
    (reserveA ≠ 0 ∧ reserveB ≠ 0) ∧ (q.reserves.a.val : Int) = reserveA ∧
      (q.reserves.b.val : Int) = reserveB := by
  simp only [found, Traced.outcome_bind, Traced.outcome_ite, Traced.outcome_throw, error_bind] at quoted
  split at quoted
  · cases quoted
  · split at quoted
    · cases quoted
    · simp only [bind_eq_ok, outcome_store, Reserves.read_eq_ok, Traced.outcome_pure,
        Except.ok.injEq] at quoted
      obtain ⟨ramp, -, minted, -, _, -, reserves, ⟨isA, isB, -⟩, rfl⟩ := quoted
      exact ⟨by omega, isA, isB⟩

variable {now amountIn minimum : Int}

theorem swap_spec {direction : Direction} {q : Swap}
    (quoted : (swap cap pool now amountIn minimum direction).outcome = .ok (some q)) :
    (Exchange.swap cap pool.fees (pool.ramp.factor now) amountIn
      (pool.reserves.get direction.source).val
      (pool.reserves.get direction.destination).val).outcome = .ok q.amounts ∧
    ((q.newReserves.get direction.source).val : Int) = q.amounts.newSource ∧
    ((q.newReserves.get direction.destination).val : Int) = q.amounts.newDestination ∧
    q.newReserves.supply = pool.reserves.supply := by
  simp only [swap, Traced.outcome_bind, Traced.outcome_ite, Traced.outcome_pure] at quoted
  split at quoted
  · cases quoted
  · simp only [bind_eq_ok, outcome_attempt, outcome_store, Reserves.set_eq_ok, Except.ok.injEq,
      Option.some.injEq] at quoted
    obtain ⟨amounts, priced, _, -, first, ⟨isSource, -, sameSupply⟩, next,
      ⟨isDestination, sameSource, sameSupply'⟩, _, -, rfl⟩ := quoted
    have source : direction.destination.other = direction.source := by cases direction <;> rfl
    rw [source] at sameSource
    exact ⟨priced, by rw [sameSource]; exact isSource, isDestination, by rw [sameSupply', sameSupply]⟩

theorem deposit_spec {amountA amountB : Int} {q : Deposit}
    (quoted : (deposit cap pool now amountA amountB minimum).outcome = .ok (some q)) :
    0 < pool.reserves.supply.val ∧
    (Exchange.mintForDeposit cap pool.fees (pool.ramp.factor now) amountA amountB
      pool.reserves.a.val pool.reserves.b.val pool.reserves.supply.val).outcome = .ok q.minted ∧
    (q.newReserves.a.val : Int) = pool.reserves.a.val + amountA ∧
    (q.newReserves.b.val : Int) = pool.reserves.b.val + amountB ∧
    (q.newReserves.supply.val : Int) = pool.reserves.supply.val + q.minted := by
  simp only [deposit, Traced.outcome_bind, Traced.outcome_ite, Traced.outcome_pure,
    Traced.outcome_throw, error_bind] at quoted
  split at quoted
  · cases quoted
  · split at quoted
    · cases quoted
    · simp only [bind_eq_ok, outcome_attempt, outcome_compute, outcome_store, Reserves.read_eq_ok,
        Word.ofInt_eq_ok, Word.add_eq_ok, Word.narrow_eq_ok, pure_eq_ok, Except.ok.injEq,
        Option.some.injEq] at quoted
      obtain ⟨minted, priced, _, -, _, ⟨a, isA, sumA, isSumA, _, ⟨rfl, -⟩, b, isB, sumB, isSumB, _, ⟨rfl, -⟩,
        supply, isSupply, sum, isSum, _, ⟨rfl, -⟩, rfl⟩, next, ⟨newA, newB, newSupply⟩, _, -, rfl⟩ := quoted
      dsimp only at newA newB newSupply ⊢
      exact ⟨by omega, priced, by omega, by omega, by omega⟩

def Withdrawal.share (q : Withdrawal) : Asset → Exchange.ShareAmounts
  | .a => q.a
  | .b => q.b

theorem withdraw_spec {burned minimumA minimumB : Int} {q : Withdrawal}
    (quoted : (withdraw pool burned minimumA minimumB).outcome = .ok (some q)) :
    (0 < pool.reserves.supply.val ∧ burned ≤ pool.reserves.supply.val) ∧
    (∀ asset, Exchange.withdrawShare pool.fees burned pool.reserves.supply.val
      (pool.reserves.get asset).val = .ok (q.share asset)) ∧
    (∀ asset, ((pool.reserves.get asset).val : Int) =
      (q.newReserves.get asset).val + (q.share asset).amount + (q.share asset).adminFee) ∧
    (pool.reserves.supply.val : Int) = q.newReserves.supply.val + burned := by
  simp only [withdraw, Traced.outcome_bind, Traced.outcome_ite, Traced.outcome_pure] at quoted
  split at quoted
  · cases quoted
  · simp only [Exchange.withdrawBoth, bind_eq_ok, outcome_requireBurnable, outcome_compute,
      outcome_store, Reserves.read_eq_ok, Word.ofInt_eq_ok, Word.sub_eq_ok, pure_eq_ok,
      Except.ok.injEq, Option.some.injEq] at quoted
    obtain ⟨_, burnable, _, ⟨a, pricedA, b, pricedB, rfl⟩, _, -, _, -, _, ⟨wordA, isA, paidA, isPaidA,
      leftA, isLeftA, wordB, isB, paidB, isPaidB, leftB, isLeftB, supply, isSupply, left, isLeft, rfl⟩,
      next, ⟨newA, newB, newSupply⟩, _, -, rfl⟩ := quoted
    dsimp only at *
    refine ⟨burnable, ?_, ?_, by omega⟩
    · intro asset
      cases asset with
      | a => exact pricedA
      | b => exact pricedB
    · intro asset
      cases asset with
      | a =>
        simp only [Withdrawal.share, Reserves.get]
        omega
      | b =>
        simp only [Withdrawal.share, Reserves.get]
        omega

theorem withdrawOne_spec {burned : Int} {base : Asset} {q : OneWithdrawal}
    (quoted : (withdrawOne cap pool now burned minimum base).outcome = .ok (some q)) :
    (0 < pool.reserves.supply.val ∧ burned ≤ pool.reserves.supply.val) ∧
    ∃ (w : Exchange.Withdrawal) (adminTrade adminWithdraw : Nat),
      (Exchange.withdrawOne cap pool.fees (pool.ramp.factor now) burned pool.reserves.supply.val
        (pool.reserves.get base).val (pool.reserves.get base.other).val).outcome = .ok w ∧
      pool.fees.withdrawFee w.dy = .ok q.withdrawFee ∧ w.dy = q.amount + q.withdrawFee ∧
      pool.fees.adminTradeFee w.fee = .ok adminTrade ∧
      pool.fees.adminWithdrawFee q.withdrawFee = .ok adminWithdraw ∧
      q.adminFee = adminTrade + adminWithdraw ∧
      ((pool.reserves.get base).val : Int) =
        (q.newReserves.get base).val + q.amount + q.adminFee ∧
      q.newReserves.get base.other = pool.reserves.get base.other ∧
      (pool.reserves.supply.val : Int) = q.newReserves.supply.val + burned := by
  simp only [withdrawOne, Traced.outcome_bind, Traced.outcome_ite, Traced.outcome_pure] at quoted
  split at quoted
  · cases quoted
  · simp only [bind_eq_ok, outcome_requireBurnable, outcome_attempt, outcome_compute, outcome_store,
      Reserves.set_eq_ok, Reserves.setSupply_eq_ok, Word.ofInt_eq_ok, Word.add_eq_ok, Word.sub_eq_ok,
      Word.narrow_eq_ok, pure_eq_ok, Except.ok.injEq, Option.some.injEq] at quoted
    obtain ⟨_, burnable, w, priced, _, ⟨withdrawFee, charged, dy, isDy, amount, isAmount, rfl⟩, _, -, _,
      ⟨adminTrade, chargedTrade, adminWithdraw, chargedWithdraw, first, isFirst, both, isBoth, _, ⟨rfl, -⟩,
      reserve, isReserve, paid, isPaid, left, isLeft, supply, isSupply, remaining, isRemaining, rfl⟩, _, -,
      moved, ⟨newBase, newOther, -⟩, next, ⟨same, newSupply⟩, rfl⟩ := quoted
    dsimp only at *
    refine ⟨burnable, w, adminTrade, adminWithdraw, priced, charged, by omega, chargedTrade,
      chargedWithdraw, by omega, ?_, by rw [same, newOther], by omega⟩
    rw [same]
    omega

end Quote

end PegPool
