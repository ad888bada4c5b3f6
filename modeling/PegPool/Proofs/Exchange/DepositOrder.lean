import PegPool.Proofs.Exchange.RatioDeposit

/-!
# Deposits in either order of the assets

In the ratio of the reserves a deposit mints its share in either order.  Any other deposit mints the
same in both as far as the invariants that it solves are (`mintForDeposit_swapped`).  The faults of the
two orders are caught alike, unless neither new reserve fits in 64 bits and just one of the two can be
written (`mintForDeposit_failAlike`).
-/

namespace PegPool.Exchange

open Text (isWritable isWritable_word isWritable_of_lt)
open Curve (ToldAlike)

variable {cap n : Nat} {fees : Fees} {amp depositA depositB reserveA reserveB supply : Int}

/-! ## What is minted -/

/-- None of the invariants that are calculated for a deposit depends on the order of the reserves. -/
structure DepositOrderFree (cap : Nat) (fees : Fees) (amp depositA depositB reserveA reserveB : Int) :
    Prop where
  before : Curve.OrderFree cap amp reserveA reserveB
  after : Curve.OrderFree cap amp (reserveA + depositA) (reserveB + depositB)
  charged : ∀ d0 d1 chargedA chargedB : Nat,
    Growth cap amp depositA depositB reserveA reserveB d0 d1 →
    chargeImbalance fees d0 d1 reserveA (reserveA + depositA).toNat = .ok chargedA →
    chargeImbalance fees d0 d1 reserveB (reserveB + depositB).toNat = .ok chargedB →
    Curve.OrderFree cap amp chargedA chargedB

theorem Growth.swapped {d0 d1 : Nat}
    (growth : Growth cap amp depositA depositB reserveA reserveB d0 d1)
    (before : Curve.OrderFree cap amp reserveA reserveB)
    (after : Curve.OrderFree cap amp (reserveA + depositA) (reserveB + depositB)) :
    Growth cap amp depositB depositA reserveB reserveA d0 d1 :=
  ⟨growth.depositBNonneg, growth.depositANonneg, growth.reserveBNonneg, growth.reserveANonneg,
    growth.newBFits, growth.newAFits, (before d0).mp growth.before, (after d1).mp growth.after,
    growth.grows⟩

theorem DepositOrderFree.symm
    (free : DepositOrderFree cap fees amp depositA depositB reserveA reserveB) :
    DepositOrderFree cap fees amp depositB depositA reserveB reserveA := by
  refine ⟨free.before.symm, free.after.symm, ?_⟩
  intro d0 d1 chargedB chargedA growth isChargedB isChargedA
  exact (free.charged d0 d1 chargedA chargedB (growth.swapped free.before.symm free.after.symm)
    isChargedA isChargedB).symm

/-- A deposit that mints a share is one in the ratio of the reserves, with room for it. -/
theorem RatioDeposit.of_growth {d0 d1 : Nat} (capPos : 1 ≤ cap)
    (growth : Growth cap amp depositA depositB reserveA reserveB d0 d1) (reserveAPos : 0 < reserveA)
    (inRatio : depositA * reserveB = depositB * reserveA) :
    RatioDeposit amp depositA depositB reserveA reserveB := by
  have grows := growth.grows
  obtain ⟨zero, -⟩ | ⟨old, -⟩ := Curve.invariant_spec capPos growth.before
  · omega
  obtain ⟨-, -, none⟩ | ⟨range, -⟩ := Curve.invariant_spec capPos growth.after
  · omega
  refine ⟨old.aPos, old.bPos, growth.depositANonneg, growth.depositBNonneg, ?_, inRatio, range⟩
  rintro ⟨rfl, rfl⟩
  have after := growth.after
  rw [add_zero, add_zero] at after
  cases growth.before.symm.trans after
  omega

theorem mintForDeposit_swapped (supplyPos : 1 ≤ supply)
    (free : depositA * reserveB ≠ depositB * reserveA →
      DepositOrderFree Curve.defaultCap fees amp depositA depositB reserveA reserveB)
    (priced : (mintForDeposit Curve.defaultCap fees amp depositA depositB reserveA reserveB
      supply).outcome = .ok n) :
    (mintForDeposit Curve.defaultCap fees amp depositB depositA reserveB reserveA supply).outcome =
      .ok n := by
  have capPos : 1 ≤ Curve.defaultCap := by decide
  obtain ⟨d0, d1, growth, minted⟩ := growth_of_mintForDeposit priced
  cases minted with
  | share inRatio share =>
    obtain ⟨-, -, ⟨reserveAPos, -⟩, -⟩ := mulDiv_eq_ok.mp share
    have deposit := RatioDeposit.of_growth capPos growth reserveAPos inRatio
    obtain ⟨d0', d1', growth'⟩ := deposit.symm.exists_growth
    have reserveBPos := deposit.reserveBPos
    have sameShare : mulDiv supply depositB reserveB = .ok n := by
      rw [deposit.symm.mulDiv_iff supplyPos,
        ← share_of_ratio inRatio reserveAPos (by omega), ← deposit.mulDiv_iff supplyPos]
      exact share
    exact mintForDeposit_of_growth capPos growth' (.share inRatio.symm sameShare)
  | growth unbalanced isChargedA isChargedB invariant le share =>
    obtain ⟨before, after, charged⟩ := free unbalanced
    have sameInvariant := charged d0 d1 _ _ growth isChargedA isChargedB
    exact mintForDeposit_of_growth capPos (growth.swapped before after)
      (.growth unbalanced.symm isChargedB isChargedA ((sameInvariant _).mp invariant) le share)

/-! ## How it fails -/

theorem newReserves_failAlike {f g : Nat → Nat → Except Fault Nat} {ra rb : Word}
    (alike : ToldAlike (2 ^ 64) (ra.val + depositA) (rb.val + depositB))
    (rest : ∀ newA newB, newReserve ra.val depositA = .ok newA → newReserve rb.val depositB = .ok newB →
      FailAlike (f newA newB) (g newB newA)) :
    FailAlike (do f (← newReserve ra.val depositA) (← newReserve rb.val depositB))
      (do g (← newReserve rb.val depositB) (← newReserve ra.val depositA)) := by
  intro fault fault' failed failed'
  cases isA : newReserve ra.val depositA with
  | ok newA =>
    cases isB : newReserve rb.val depositB with
    | ok newB =>
      simp only [isA, isB, ok_bind] at failed failed'
      exact rest newA newB isA isB fault fault' failed failed'
    | error e =>
      simp only [isA, isB, ok_bind, error_bind, Except.error.injEq] at failed failed'
      rw [← failed, ← failed']
  | error e =>
    simp only [isA, error_bind, Except.error.injEq] at failed
    cases isB : newReserve rb.val depositB with
    | ok newB =>
      simp only [isA, isB, ok_bind, error_bind, Except.error.injEq] at failed'
      rw [← failed, ← failed']
    | error e' =>
      simp only [isB, error_bind, Except.error.injEq] at failed'
      rw [← failed, ← failed', isCaught_of_newReserve isA, isCaught_of_newReserve isB]
      obtain same | ⟨nonneg, fits⟩ | ⟨nonneg, fits⟩ := alike
      · exact same
      · have sum : newReserve ra.val depositA = .ok (ra.val + depositA).toNat :=
          newReserve_eq_ok.mpr ⟨⟨by omega, by have := ra.lt; omega⟩, by omega, by omega⟩
        cases isA.symm.trans sum
      · have sum : newReserve rb.val depositB = .ok (rb.val + depositB).toNat :=
          newReserve_eq_ok.mpr ⟨⟨by omega, by have := rb.lt; omega⟩, by omega, by omega⟩
        cases isB.symm.trans sum

/-- An invariant other than zero has a coefficient that can be written. -/
theorem isWritable_of_invariant {d : Nat} (capPos : 1 ≤ cap) (dPos : 0 < d)
    (calculated : (Curve.invariant cap reserveA reserveB amp).outcome = .ok d) :
    isWritable amp = true := by
  obtain ⟨-, -, none⟩ | ⟨range, -⟩ := Curve.invariant_spec capPos calculated
  · omega
  · obtain ⟨-, -, ampPos, -, -, -, ampFits⟩ := range
    exact isWritable_of_lt (by omega)

theorem mintForDeposit_failAlike (capPos : 1 ≤ cap) (fees : Fees) (amp : Int) {ra rb : Word}
    (alike : ToldAlike (2 ^ 64) (ra.val + depositA) (rb.val + depositB))
    (supplyWritable : isWritable supply = true) :
    FailAlike (mintForDeposit cap fees amp depositA depositB ra.val rb.val supply).outcome
      (mintForDeposit cap fees amp depositB depositA rb.val ra.val supply).outcome := by
  have together (a b : Int) : (∃ d, (Curve.invariant cap a b amp).outcome = .ok d) ↔
      ∃ d, (Curve.invariant cap b a amp).outcome = .ok d :=
    ⟨fun ⟨_, solved⟩ => Curve.exists_invariant_swapped capPos solved,
      fun ⟨_, solved⟩ => Curve.exists_invariant_swapped capPos solved⟩
  rw [outcome_mintForDeposit, outcome_mintForDeposit]
  refine .bind (Curve.invariant_failAlike_of_words capPos amp ra rb) (together _ _)
    fun d0 d0' before before' => newReserves_failAlike alike fun newA newB isNewA isNewB => ?_
  obtain ⟨newAFits, depositABrief⟩ := brief_of_newReserve isNewA
  obtain ⟨newBFits, depositBBrief⟩ := brief_of_newReserve isNewB
  refine .bind (Curve.invariant_failAlike capPos amp (.inr (.inl (by omega)))) (together _ _)
    fun d1 d1' after after' => ?_
  have caught {d d' : Nat} {a b : Int} {c c' : Int}
    (before : (Curve.invariant cap a b amp).outcome = .ok d)
    (after : (Curve.invariant cap c c' amp).outcome = .ok d') :
    (d < d' → isWritable amp = true) ∧ d < 2 ^ 256 ∧ d' < 2 ^ 256 := by
    have dFits := Curve.invariant_fits capPos before
    have dFits' := Curve.invariant_fits capPos after
    exact ⟨fun grows => isWritable_of_invariant capPos (by omega) after, by omega, by omega⟩
  obtain ⟨ampWritable, d0Fits, d1Fits⟩ := caught before after
  obtain ⟨ampWritable', d0Fits', d1Fits'⟩ := caught before' after'
  exact .of_caught
    (mintForGrowth_caught cap fees ampWritable depositABrief depositBBrief (.word ra) (.word rb)
      supplyWritable d0Fits d1Fits newAFits newBFits)
    (mintForGrowth_caught cap fees ampWritable' depositBBrief depositABrief (.word rb) (.word ra)
      supplyWritable d0Fits' d1Fits' newBFits newAFits)

end PegPool.Exchange
