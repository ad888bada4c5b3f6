import PegPool.Proofs.Curve.Monotone
import PegPool.Proofs.Exchange.Deposit
import PegPool.Proofs.Exchange.OneAsset

/-!
# The charge on imbalance and what a deposit mints

A deposit that is not in the ratio of the reserves is charged before what it mints is calculated from
the invariant of the reserves that are left (`Leaves`).  These are not larger than without a charge, so
the deposit mints at most what it would without one wherever the calculated invariant is monotone
(`MintsBoth.le_of_invariantLe`).  Where it is not, the charge can raise the mint.
-/

namespace PegPool.Exchange

open Curve (defaultCap Grown InvariantLe Outgrows)

variable {fees : Fees} {d0 d1 new n : Nat} {old : Int}

theorem chargeImbalance_le (charged : chargeImbalance fees d0 d1 old new = .ok n) : n ≤ new := by
  simp only [chargeImbalance, bind_eq_ok, Word.ofInt_eq_ok, Word.sub_eq_ok, pure_eq_ok] at charged
  obtain ⟨_, -, _, -, _, -, ideal, -, _, -, difference, -, fee, -, whole, isWhole, left, isLeft, rfl⟩ :=
    charged
  omega

theorem eq_of_chargeImbalance_free (charged : chargeImbalance .free d0 d1 old new = .ok n) :
    n = new := by
  simp only [chargeImbalance, bind_eq_ok, Word.ofInt_eq_ok, Word.sub_eq_ok, pure_eq_ok] at charged
  obtain ⟨_, -, _, -, _, -, ideal, -, _, -, difference, -, fee, isFee, whole, isWhole, left, isLeft, rfl⟩ :=
    charged
  obtain ⟨nonneg, fits⟩ := Fees.nonneg_of_imbalanceFee isFee
  cases isFee.symm.trans (Fees.imbalanceFee_free nonneg fits)
  omega

variable {amp depositA depositB reserveA reserveB supply : Int} {m m0 chargedA chargedB : Nat}

/-- A deposit mints `m` pool tokens under a schedule of fees and `m0` under the one that charges
nothing. -/
structure MintsBoth (fees : Fees) (amp depositA depositB reserveA reserveB supply : Int) (m m0 : Nat) :
    Prop where
  charged : (mintForDeposit defaultCap fees amp depositA depositB reserveA reserveB supply).outcome =
    .ok m
  free : (mintForDeposit defaultCap .free amp depositA depositB reserveA reserveB supply).outcome =
    .ok m0

/-- Of the reserves after a deposit the charge on its imbalance leaves `chargedA` and `chargedB`. -/
def Leaves (fees : Fees) (amp depositA depositB reserveA reserveB : Int) (chargedA chargedB : Nat) :
    Prop :=
  ∃ d0 d1, Growth defaultCap amp depositA depositB reserveA reserveB d0 d1 ∧
    chargeImbalance fees d0 d1 reserveA (reserveA + depositA).toNat = .ok chargedA ∧
    chargeImbalance fees d0 d1 reserveB (reserveB + depositB).toNat = .ok chargedB

theorem Growth.unique {cap d0' d1' : Nat}
    (growth : Growth cap amp depositA depositB reserveA reserveB d0 d1)
    (growth' : Growth cap amp depositA depositB reserveA reserveB d0' d1') : d0 = d0' ∧ d1 = d1' := by
  cases growth.before.symm.trans growth'.before
  cases growth.after.symm.trans growth'.after
  exact ⟨rfl, rfl⟩

theorem Growth.range {cap : Nat} (growth : Growth cap amp depositA depositB reserveA reserveB d0 d1)
    (capPos : 1 ≤ cap) : Curve.InRange (reserveA + depositA) (reserveB + depositB) amp := by
  obtain ⟨-, -, isZero⟩ | ⟨range, -⟩ := Curve.invariant_spec capPos growth.after
  · have := growth.grows
    omega
  · exact range

namespace MintsBoth

theorem eq_of_ratio (both : MintsBoth fees amp depositA depositB reserveA reserveB supply m m0)
    (inRatio : depositA * reserveB = depositB * reserveA) : m = m0 := by
  obtain ⟨d0, d1, -, minted⟩ := growth_of_mintForDeposit both.charged
  obtain ⟨d0', d1', -, minted'⟩ := growth_of_mintForDeposit both.free
  cases minted with
  | growth unbalanced => exact absurd inRatio unbalanced
  | share _ share =>
    cases minted' with
    | growth unbalanced => exact absurd inRatio unbalanced
    | share _ share' =>
      cases share.symm.trans share'
      rfl

theorem le_of_invariantLe (both : MintsBoth fees amp depositA depositB reserveA reserveB supply m m0)
    (leaves : Leaves fees amp depositA depositB reserveA reserveB chargedA chargedB)
    (lowers : Grown chargedA chargedB (reserveA + depositA) (reserveB + depositB) amp →
      InvariantLe chargedA chargedB (reserveA + depositA) (reserveB + depositB) amp) : m ≤ m0 := by
  obtain ⟨d0, d1, growth, isChargedA, isChargedB⟩ := leaves
  obtain ⟨_, _, growth', minted⟩ := growth_of_mintForDeposit both.charged
  obtain ⟨rfl, rfl⟩ := growth.unique growth'
  obtain ⟨_, _, growth'', mintedFree⟩ := growth_of_mintForDeposit both.free
  obtain ⟨rfl, rfl⟩ := growth.unique growth''
  cases minted with
  | share inRatio _ => exact (both.eq_of_ratio inRatio).le
  | @growth a b d2 unbalanced isA isB invariant le share =>
    cases mintedFree with
    | share inRatio _ => exact absurd inRatio unbalanced
    | @growth a' b' d2' _ isA' isB' invariant' le' share' =>
      cases isChargedA.symm.trans isA
      cases isChargedB.symm.trans isB
      obtain ⟨-, -, ⟨d0Pos, -⟩, -, isMinted, -⟩ := mulDiv_eq_ok.mp share
      obtain ⟨⟨supplyNonneg, -⟩, -, -, -, isMinted', -⟩ := mulDiv_eq_ok.mp share'
      have := growth.reserveANonneg
      have := growth.reserveBNonneg
      have := growth.depositANonneg
      have := growth.depositBNonneg
      rw [eq_of_chargeImbalance_free isA', eq_of_chargeImbalance_free isB',
        Int.toNat_of_nonneg (by omega), Int.toNat_of_nonneg (by omega)] at invariant'
      cases growth.after.symm.trans invariant'
      have leA := chargeImbalance_le isA
      have leB := chargeImbalance_le isB
      obtain ⟨d2'', d1'', calculated, calculated', lower⟩ : InvariantLe chargedA chargedB
          (reserveA + depositA) (reserveB + depositB) amp := by
        obtain ⟨-, -, isZero⟩ | ⟨range, -⟩ := Curve.invariant_spec (by decide) invariant
        · omega
        · exact lowers ⟨range.aPos, range.bPos, by omega, by omega, growth.range (by decide)⟩
      cases invariant.symm.trans calculated
      cases growth.after.symm.trans calculated'
      have := Word.fdiv_le_fdiv (mul_nonneg supplyNonneg (show 0 ≤ (d1 : Int) - d0 by omega))
        (mul_le_mul_of_nonneg_left (show (d2 : Int) - d0 ≤ d1 - d0 by omega) supplyNonneg) d0Pos le_rfl
      omega

end MintsBoth

/-! ## The limit of the skew -/

/-- A fee of one unit on a deviation of a million. -/
def oneInMillion : Fees :=
  { Fees.free with trade := ⟨⟨2, by decide⟩, ⟨1000000, by decide⟩⟩ }

theorem mintsBoth_at_twenty_times :
    MintsBoth oneInMillion 1 4123294 0 4000000 409659 3306099 2072220 2072219 :=
  ⟨rfl, rfl⟩

theorem leaves_at_twenty_times : Leaves oneInMillion 1 4123294 0 4000000 409659 8123293 409659 :=
  ⟨3306099, 5378318, ⟨by decide, by decide, by decide, by decide, by decide, by decide, rfl, rfl,
    by decide⟩, rfl, rfl⟩

/-- The charge on the imbalance of a deposit does not raise what it mints if it takes anything of the
second asset, or leaves at most four times as much of the first one.  Where a whole number lies between
the exact invariants with and without the charge, it does not raise it in all pools up to some skew,
exactly if that skew is at most 19. -/
theorem charged_mint_le_iff_le_nineteen (skew : Nat) :
    (∀ (fees : Fees) (amp depositA depositB reserveA reserveB supply : Int) (m m0 : Nat),
      MintsBoth fees amp depositA depositB reserveA reserveB supply m m0 →
      (depositA * reserveB = depositB * reserveA ∨ ∃ chargedA chargedB : Nat,
        Leaves fees amp depositA depositB reserveA reserveB chargedA chargedB ∧
        (chargedB < reserveB + depositB ∨ chargedA ≤ 4 * chargedB)) → m ≤ m0) ∧
    ((∀ (fees : Fees) (amp depositA depositB reserveA reserveB supply : Int)
        (m m0 chargedA chargedB : Nat),
      MintsBoth fees amp depositA depositB reserveA reserveB supply m m0 →
      Leaves fees amp depositA depositB reserveA reserveB chargedA chargedB →
      Outgrows chargedA chargedB (reserveA + depositA) (reserveB + depositB) amp →
      chargedA ≤ skew * chargedB → m ≤ m0) ↔ skew ≤ 19) := by
  refine ⟨?_, fun lowers => ?_, fun atMost => ?_⟩
  · rintro fees amp depositA depositB reserveA reserveB supply m m0 both
      (inRatio | ⟨chargedA, chargedB, leaves, more | four⟩)
    · exact (both.eq_of_ratio inRatio).le
    · exact both.le_of_invariantLe leaves fun grown => Curve.invariant_le_of_grown_right grown more
    · exact both.le_of_invariantLe leaves fun grown =>
        Curve.invariant_le_of_le_four_mul grown (by omega)
  · by_contra more
    have outgrows : Outgrows (8123293 : Nat) (409659 : Nat) (4000000 + 4123294) (409659 + 0) 1 :=
      ⟨5378318, by decide⟩
    exact absurd (lowers _ _ _ _ _ _ _ _ _ _ _ mintsBoth_at_twenty_times leaves_at_twenty_times
      outgrows (by omega)) (by decide)
  · intro fees amp depositA depositB reserveA reserveB supply m m0 chargedA chargedB both leaves
      outgrows skewed
    have steeper : skew * chargedB ≤ 19 * chargedB := Nat.mul_le_mul_right _ atMost
    exact both.le_of_invariantLe leaves fun grown =>
      Curve.invariant_le_of_outgrows grown (by omega) outgrows

def tenPercent : Fees :=
  { Fees.free with trade := ⟨⟨2, by decide⟩, ⟨20, by decide⟩⟩ }

/-- A deposit of 35 beside one unit of each asset mints 21 at ten percent and 20 without a fee. -/
theorem charge_raises_mint : MintsBoth tenPercent 2 35 0 1 1 2 21 20 :=
  ⟨rfl, rfl⟩

end PegPool.Exchange
