import PegPool.Exchange
import PegPool.Proofs.Curve.Reserve

/-!
# Swaps and the exact invariant

A swap solves the curve for the invariant `d` and for the destination reserve `y` that keeps it, and
leaves `y + 1` there (`PricedSwap`).  The calculated reserve may be short of the exact one by more
than the unit that is withheld, but by less than two (`PricedSwap.residual_nonneg`).  So the exact
invariant is safe exactly if the trade fee leaves another unit in the pool
(`keepsInvariant_iff_one_le`).
-/

namespace PegPool

def Amount.one : Amount := ⟨1, by decide⟩

/-- The amount nearest to a number: itself, if it fits. -/
def Amount.nearest (n : Nat) : Amount := ⟨min n (2 ^ 64 - 1), by omega⟩

def Fees.free : Fees :=
  let none : Rate := ⟨.zero, .one⟩
  ⟨none, none, none, none⟩

namespace Exchange

open Curve (InRange Approach residual)

variable {cap : Nat} {fees : Fees} {amp amountIn source destination : Int} {s : SwapAmounts}

/-- What a swap is made of: the invariant `d` of the pool and the reserve `y` that keeps it. -/
structure PricedSwap (cap : Nat) (fees : Fees) (amp amountIn source destination : Int)
    (s : SwapAmounts) (d y : Nat) : Prop where
  invariant : (Curve.invariant cap source destination amp).outcome = .ok d
  solved : (Curve.otherAmount cap s.newSource d amp).outcome = .ok y
  adminFee : fees.adminTradeFee s.fee = .ok s.adminFee
  isNewSource : (s.newSource : Int) = source + amountIn
  /-- Beside `y` and the unit that is withheld there is what is paid and what is charged. -/
  isDestination : destination = y + 1 + s.amountSwapped + s.fee
  isNewDestination : (s.newDestination : Int) = y + 1 + s.fee - s.adminFee

theorem exists_pricedSwap
    (priced : (swap cap fees amp amountIn source destination).outcome = .ok s) :
    ∃ d y : Nat, PricedSwap cap fees amp amountIn source destination s d y := by
  simp only [swap, Curve.output, Traced.outcome_bind, Traced.outcome_liftM, bind_eq_ok,
    Word.read_int, Word.ofInt_eq_ok, Word.add_eq_ok, Word.sub_eq_ok, Word.narrow_eq_ok,
    Traced.outcome_pure, Except.ok.injEq] at priced
  obtain ⟨raw, ⟨d, invariant, src, isSource, added, isAdded, more, isMore, _, ⟨rfl, -⟩, y, solved, dest,
    isDestination, out, isOut, rfl⟩, raw, isRaw, dy, isDy, fee, -, adminFee, charged, paid, isPaid, dest',
    isDestination', kept, isKept, left, isLeft, src', isSource', more', isMore', _, ⟨rfl, -⟩, rfl⟩ := priced
  obtain rfl : more' = more := by
    rw [Word.ext_iff]
    omega
  refine ⟨d, y, invariant, solved, charged, ?_, ?_, ?_⟩
  · dsimp only
    omega
  · dsimp only
    omega
  · dsimp only
    omega

/-- The output of the curve is what is paid, the fee and the unit that is withheld. -/
theorem output_of_swap
    (priced : (swap cap fees amp amountIn source destination).outcome = .ok s) :
    (Curve.output cap amountIn source destination amp).outcome =
      .ok (s.amountSwapped + s.fee + 1) := by
  simp only [swap, Traced.outcome_bind, Traced.outcome_liftM, bind_eq_ok, Word.ofInt_eq_ok,
    Word.sub_eq_ok, Traced.outcome_pure, Except.ok.injEq] at priced
  obtain ⟨raw, isOutput, whole, isWhole, dy, isDy, fee, -, adminFee, -, paid, isPaid, _, -, _, -, _, -, _,
    -, _, -, _, -, rfl⟩ := priced
  dsimp only
  obtain rfl : raw = paid.val + fee + 1 := by omega
  exact isOutput

namespace PricedSwap

variable {d y : Nat}

theorem spec (priced : PricedSwap cap fees amp amountIn source destination s d y)
    (capPos : 1 ≤ cap) :
    InRange source destination amp ∧ Approach source destination amp d := by
  obtain ⟨-, empty, -⟩ | known := Curve.invariant_spec capPos priced.invariant
  · have := priced.isDestination
    omega
  · exact known

theorem residual_nonneg (priced : PricedSwap cap fees amp amountIn source destination s d y)
    (capPos : 1 ≤ cap) {left : Int} (two : y + 2 ≤ left) : 0 ≤ residual s.newSource left amp d := by
  obtain ⟨-, approach⟩ := priced.spec capPos
  obtain ⟨⟨sourcePos, -, ampPos⟩, above⟩ := Curve.otherAmount_spec capPos priced.solved
  exact Curve.residual_nonneg_of_reserve sourcePos approach.pos ampPos (by omega) above (by omega)

end PricedSwap

/-- The integer part of the exact invariant does not go down. -/
def KeepsInvariant (amp source destination : Int) (s : SwapAmounts) : Prop :=
  ∀ t : Int, 0 ≤ t → 0 ≤ residual source destination amp t →
    0 ≤ residual s.newSource s.newDestination amp t

/-- A unit of the fee that stays in the pool makes up for the rounding of the solver. -/
theorem PricedSwap.keepsInvariant {d y : Nat}
    (priced : PricedSwap cap fees amp amountIn source destination s d y) (capPos : 1 ≤ cap)
    (left : s.adminFee + 1 ≤ s.fee) : KeepsInvariant amp source destination s := by
  intro t nonneg before
  obtain ⟨⟨sourcePos, destinationPos, ampPos, -⟩, approach⟩ := priced.spec capPos
  have newDestination := priced.isNewDestination
  obtain ⟨⟨newSourcePos, -⟩, -⟩ := Curve.otherAmount_spec capPos priced.solved
  have atMost : t ≤ d :=
    Curve.le_of_residual sourcePos destinationPos ampPos (by omega) before approach.after
  have kept := priced.residual_nonneg capPos (show (y : Int) + 2 ≤ s.newDestination by omega)
  exact kept.trans (Curve.residual_anti newSourcePos (by omega) ampPos nonneg atMost)

theorem swap_into_one_and_twelve :
    (swap Curve.defaultCap .free 1 10 1 12).outcome = .ok ⟨11, 1, 11, 0, 0⟩ := rfl

/-- The exact invariant is kept by every swap that leaves some units of its fee in the pool exactly
if that is at least one unit. -/
theorem keepsInvariant_iff_one_le (units : Nat) :
    (∀ (fees : Fees) (amp amountIn source destination : Int) (s : SwapAmounts),
      1 ≤ source → 1 ≤ destination → 1 ≤ amp → amp ≤ 1000000 → 1 ≤ amountIn →
      (swap Curve.defaultCap fees amp amountIn source destination).outcome = .ok s →
      s.adminFee + units ≤ s.fee → KeepsInvariant amp source destination s) ↔ 1 ≤ units := by
  constructor
  · intro always
    by_contra none
    obtain rfl : units = 0 := by omega
    have kept := always .free 1 10 1 12 _ (by decide) (by decide) (by decide) (by decide) (by decide)
      swap_into_one_and_twelve (by decide)
    exact absurd (kept 9 (by decide) (by decide)) (by decide)
  · intro one fees amp amountIn source destination s _ _ _ _ _ swapped left
    obtain ⟨d, y, priced⟩ := exists_pricedSwap swapped
    exact priced.keepsInvariant (by decide) (by omega)

/-- Ten units into a pool of 1 and 12 without a fee: the exact invariant falls below 9. -/
theorem swap_lowers_invariant : ∃ s,
    (swap Curve.defaultCap .free 1 10 1 12).outcome = .ok s ∧ s.adminFee ≤ s.fee ∧
      ¬ KeepsInvariant 1 1 12 s :=
  ⟨_, swap_into_one_and_twelve, by decide,
    fun kept => absurd (kept 9 (by decide) (by decide)) (by decide)⟩

end Exchange

end PegPool
