import PegPool.Proofs.Exchange.ImbalanceFee
import PegPool.Proofs.Exchange.Order
import PegPool.Proofs.Quote.Ending

/-!
# Depositing one asset and withdrawing it again

A pool is founded, an amount of one asset is deposited alone, and the pool tokens that this mints are
burned for the same asset.  The trip can pay more than was deposited (`pays_two_for_one`), for one of
two reasons.

The supply of the new pool is an integer part, so the reserve may have units to spare for it, and they
go to whoever burns first.  A trip pays for at most these (`Trip.amount_le`).  There are none if the
reserve is less than a quarter of the other one, and at most one if it is at most four times as large.

The deposit solves the invariant for the reserves that it charges and in the order of the assets, the
withdrawal for the reserves that there are and in the order of base and quote.  If the first is larger
by two, the tokens that stay lose a unit to those that are burned.  It is larger by one at most where
the first of the charged reserves is at most 19 times the second one.
-/

namespace PegPool

def Asset.alone (asset : Asset) (amount : Int) (any : Asset) : Int :=
  if any = asset then amount else 0

namespace Asset

@[simp] theorem alone_self (asset : Asset) (amount : Int) : asset.alone amount asset = amount :=
  if_pos rfl

@[simp] theorem alone_other (asset : Asset) (amount : Int) : asset.alone amount asset.other = 0 := by
  cases asset <;> rfl

theorem alone_unbalanced (asset : Asset) {amount a b : Int} (amountPos : 1 ≤ amount) (aPos : 1 ≤ a)
    (bPos : 1 ≤ b) : asset.alone amount .a * b ≠ asset.alone amount .b * a := by
  cases asset with
  | a =>
    have := Int.mul_pos (show 0 < amount by omega) (show 0 < b by omega)
    simp only [alone, reduceCtorEq, if_true, if_false, zero_mul]
    omega
  | b =>
    have := Int.mul_pos (show 0 < amount by omega) (show 0 < a by omega)
    simp only [alone, reduceCtorEq, if_true, if_false, zero_mul]
    omega

end Asset

namespace Quote

open Curve (defaultCap residual reserveResidual)

/-- An amount of one asset is deposited in a new pool, and what that mints is burned for the same asset. -/
structure Trip where
  policy : RampPolicy
  fees : Fees
  amp : Int
  reserveA : Int
  reserveB : Int
  asset : Asset
  amount : Int
  /-- The time of the deposit. -/
  now : Int
  /-- The time of the withdrawal. -/
  later : Int
  /-- The least that the deposit has to mint. -/
  leastMinted : Int
  /-- The least that the withdrawal has to pay. -/
  leastPaid : Int
  founding : Founding
  deposit : Deposit
  payment : OneWithdrawal
  ampPos : 1 ≤ amp
  ampLe : amp ≤ 1000000
  amountPos : 1 ≤ amount
  mintedPos : 1 ≤ deposit.minted
  founds : (found defaultCap policy amp reserveA reserveB).outcome = .ok founding
  deposits : (Quote.deposit defaultCap ⟨founding.ramp, fees, founding.reserves⟩ now
    (asset.alone amount .a) (asset.alone amount .b) leastMinted).outcome = .ok (some deposit)
  pays : (withdrawOne defaultCap ⟨founding.ramp, fees, deposit.newReserves⟩ later deposit.minted
    leastPaid asset).outcome = .ok (some payment)

namespace Trip

variable (t : Trip)

def reserve : Nat := (t.founding.reserves.get t.asset).val

def otherReserve : Nat := (t.founding.reserves.get t.asset.other).val

/-- Of the asset, the new pool holds at most `units` more than it needs for its supply.  The equation
for the reserve is not passed yet at a number of units which leaves out those, and the one that every
withdrawal withholds. -/
def SparesAtMost (units : Nat) : Prop :=
  ∃ z : Nat, t.reserve ≤ z + 1 + units ∧ reserveResidual t.otherReserve t.founding.minted t.amp z ≤ 0

/-- After the deposit there are at most `units` pool tokens more than units of the invariant, as the
withdrawal finds it. -/
def LacksAtMost (units : Nat) : Prop :=
  ∃ d : Nat, (Curve.invariant defaultCap (t.deposit.newReserves.get t.asset).val
    (t.deposit.newReserves.get t.asset.other).val t.amp).outcome = .ok d ∧
      t.deposit.newReserves.supply.val ≤ d + units

/-- After the charge on their imbalance the deposit counts at most 19 times as much of the first asset
as of the second one. -/
def CountedWithin : Prop :=
  ∀ d0 d1 chargedA chargedB : Nat,
    Exchange.Growth defaultCap t.amp (t.asset.alone t.amount .a) (t.asset.alone t.amount .b) t.reserveA
      t.reserveB d0 d1 →
    Exchange.chargeImbalance t.fees d0 d1 t.reserveA (t.reserveA + t.asset.alone t.amount .a).toNat =
      .ok chargedA →
    Exchange.chargeImbalance t.fees d0 d1 t.reserveB (t.reserveB + t.asset.alone t.amount .b).toNat =
      .ok chargedB →
    chargedA ≤ 19 * chargedB

/-! ## The three quotes -/

/-- The new pool holds what is deposited first, and its supply is its invariant. -/
structure Founded : Prop where
  range : Curve.InRange t.reserveA t.reserveB t.amp
  invariant : (Curve.invariant defaultCap t.reserveA t.reserveB t.amp).outcome = .ok t.founding.minted
  mintedPos : 1 ≤ t.founding.minted
  after : residual t.reserveA t.reserveB t.amp (t.founding.minted + 1) < 0
  isA : (t.founding.reserves.a.val : Int) = t.reserveA
  isB : (t.founding.reserves.b.val : Int) = t.reserveB
  isSupply : t.founding.reserves.supply.val = t.founding.minted
  isAmp : ∀ now, (t.founding.ramp.factor now : Int) = t.amp

theorem isFounded : t.Founded := by
  obtain ⟨foundable, isRamp, invariant, isSupply⟩ := foundable_of_found (by decide) t.founds
  obtain ⟨-, isA, isB⟩ := found_spec t.founds
  obtain ⟨zero, -⟩ | ⟨range, approach⟩ := Curve.invariant_spec (by decide) invariant
  · exact absurd zero foundable.aNonzero
  · have mintedPos := approach.pos
    exact ⟨range, invariant, by omega, approach.after, isA, isB, isSupply, Ramp.factor_fixed isRamp⟩

/-- With the other asset as the first one, the new pool is in range and does not reach the next total. -/
theorem range_and_after : Curve.InRange t.otherReserve t.reserve t.amp ∧
    residual t.otherReserve t.reserve t.amp (t.founding.minted + 1) < 0 := by
  obtain ⟨range, -, -, after, isA, isB, -⟩ := t.isFounded
  unfold reserve otherReserve
  cases t.asset with
  | a =>
    simp only [Asset.other, Reserves.get]
    rw [isA, isB, Curve.residual_comm]
    exact ⟨range.swapped, after⟩
  | b =>
    simp only [Asset.other, Reserves.get]
    rw [isA, isB]
    exact ⟨range, after⟩

theorem solvable : Curve.Solvable t.otherReserve t.amp :=
  have range := t.range_and_after.1
  ⟨range.aPos, range.aFits, range.ampPos, range.ampFits⟩

/-! ## What the new pool has to spare -/

/-- There is nothing more to spare where the equation for the reserve, if it were passed, would carry
the pool to the next total. -/
theorem sparesAtMost_of_reaches {units : Nat}
    (reaches : ∀ z : Nat, z + 1 + units = t.reserve → 1 ≤ z →
      1 ≤ reserveResidual t.otherReserve t.founding.minted t.amp z →
      0 ≤ residual t.otherReserve t.reserve t.amp (t.founding.minted + 1)) : t.SparesAtMost units := by
  have after := t.range_and_after.2
  refine ⟨t.reserve - 1 - units, by omega, ?_⟩
  by_contra passed
  obtain zero | positive := Nat.eq_zero_or_pos (t.reserve - 1 - units)
  · rw [zero] at passed
    exact passed (Curve.reserveResidual_zero_nonpos t.solvable (Int.natCast_nonneg _))
  · have := reaches _ (by omega) positive (by omega)
    omega

/-- A reserve of less than a quarter of the other one has nothing to spare. -/
theorem sparesAtMost_zero (scarce : 4 * t.reserve < t.otherReserve) : t.SparesAtMost 0 := by
  have mintedPos := t.isFounded.mintedPos
  refine t.sparesAtMost_of_reaches fun z isReserve positive passed => ?_
  rw [show (t.reserve : Int) = z + 1 by omega]
  exact Curve.residual_succ_nonneg_of_ge (by omega) t.ampPos (by omega) (by omega) passed

/-- A reserve of at most four times the other one has at most one unit to spare. -/
theorem sparesAtMost_one (balanced : t.reserve ≤ 4 * t.otherReserve) : t.SparesAtMost 1 := by
  have mintedPos := t.isFounded.mintedPos
  refine t.sparesAtMost_of_reaches fun z isReserve positive passed => ?_
  rw [show (t.reserve : Int) = z + 2 by omega]
  exact Curve.residual_succ_nonneg_of_le (by omega) (by omega) t.ampPos (by omega) passed (by omega)

/-! ## What the tokens that stay may lack -/

theorem exists_counted : ∃ d0 d1 chargedA chargedB d2 : Nat,
    Exchange.Growth defaultCap t.amp (t.asset.alone t.amount .a) (t.asset.alone t.amount .b) t.reserveA
      t.reserveB d0 d1 ∧
    Exchange.chargeImbalance t.fees d0 d1 t.reserveA (t.reserveA + t.asset.alone t.amount .a).toNat =
      .ok chargedA ∧
    Exchange.chargeImbalance t.fees d0 d1 t.reserveB (t.reserveB + t.asset.alone t.amount .b).toNat =
      .ok chargedB ∧
    (Curve.invariant defaultCap chargedA chargedB t.amp).outcome = .ok d2 ∧
    t.deposit.newReserves.supply.val = d2 := by
  obtain ⟨range, invariant, mintedPos, -, isA, isB, isSupply, isAmp⟩ := t.isFounded
  obtain ⟨-, priced, -, -, newSupply⟩ := deposit_spec t.deposits
  dsimp only at priced newSupply
  rw [isA, isB, isSupply, isAmp] at priced
  obtain ⟨d0, d1, growth, mints⟩ := Exchange.growth_of_mintForDeposit priced
  cases growth.before.symm.trans invariant
  have aPos := range.aPos
  have bPos := range.bPos
  have amountPos := t.amountPos
  cases mints with
  | share inRatio =>
    exact absurd inRatio (t.asset.alone_unbalanced amountPos aPos bPos)
  | @growth chargedA chargedB d2 unbalanced isChargedA isChargedB invariant' le share =>
    refine ⟨_, d1, chargedA, chargedB, d2, growth, isChargedA, isChargedB, invariant', ?_⟩
    obtain ⟨-, -, -, -, isMinted, -⟩ := mulDiv_eq_ok.mp share
    rw [Int.mul_comm, Int.mul_fdiv_cancel _ (by omega)] at isMinted
    omega

theorem newReserves_get (any : Asset) : ((t.deposit.newReserves.get any).val : Int) =
    (t.founding.reserves.get any).val + t.asset.alone t.amount any := by
  obtain ⟨-, -, newA, newB, -⟩ := deposit_spec t.deposits
  cases any with
  | a => exact newA
  | b => exact newB

/-- The withdrawal pays less than what the reserve has beyond the one that keeps the invariant that is
left. -/
theorem exists_paid : ∃ d d1 y : Nat,
    (Curve.invariant defaultCap (t.deposit.newReserves.get t.asset).val
      (t.deposit.newReserves.get t.asset.other).val t.amp).outcome = .ok d ∧
    Exchange.shrunk t.deposit.minted (t.founding.minted + t.deposit.minted : Int) d = .ok d1 ∧
    1 ≤ reserveResidual t.otherReserve d1 t.amp (y + 1) ∧
    (t.payment.amount : Int) + y + 1 ≤ t.reserve + t.amount := by
  obtain ⟨-, -, -, -, -, -, isSupply, isAmp⟩ := t.isFounded
  obtain ⟨-, -, -, -, newSupply⟩ := deposit_spec t.deposits
  obtain ⟨-, w, -, -, paid, -, isAmount, -⟩ := withdrawOne_spec t.pays
  dsimp only at newSupply paid
  rw [isAmp, newSupply, isSupply] at paid
  obtain ⟨p, d, d1, _, _, _, _, priced, isBase⟩ := Exchange.exists_priced_of_withdrawOne paid
  have fee := Exchange.one_le_fee_of_withdrawOne paid
  have above := (Curve.otherAmount_spec (by decide) priced.solved).2
  have isNew := t.newReserves_get t.asset
  have isOther := t.newReserves_get t.asset.other
  rw [Asset.alone_self] at isNew
  rw [Asset.alone_other, add_zero] at isOther
  rw [isOther] at above
  exact ⟨d, d1, p.newY, priced.invariant, priced.isShrunk, above, by unfold reserve; omega⟩

theorem newReserves_eq :
    (t.deposit.newReserves.a.val : Int) = t.reserveA + t.asset.alone t.amount .a ∧
      (t.deposit.newReserves.b.val : Int) = t.reserveB + t.asset.alone t.amount .b := by
  obtain ⟨-, -, -, -, isA, isB, -⟩ := t.isFounded
  rw [← isA, ← isB]
  exact ⟨t.newReserves_get .a, t.newReserves_get .b⟩

/-- With the assets in their order, the pool after the deposit does not reach the next total after the
invariant that the withdrawal finds. -/
theorem residual_deposited_neg {d : Nat} (calculated : (Curve.invariant defaultCap
    (t.deposit.newReserves.get t.asset).val (t.deposit.newReserves.get t.asset.other).val t.amp).outcome =
      .ok d) :
    residual (t.reserveA + t.asset.alone t.amount .a) (t.reserveB + t.asset.alone t.amount .b) t.amp
      (d + 1) < 0 := by
  obtain ⟨newA, newB⟩ := t.newReserves_eq
  rw [← newA, ← newB]
  obtain ⟨none, -⟩ | ⟨-, approach⟩ := Curve.invariant_spec (by decide) calculated
  · have amountPos := t.amountPos
    have isNew := t.newReserves_get t.asset
    rw [Asset.alone_self] at isNew
    omega
  · have after := approach.after
    cases isAsset : t.asset with
    | a =>
      rw [isAsset] at after
      exact after
    | b =>
      rw [isAsset, Curve.residual_comm] at after
      exact after

/-- If what the deposit counts of the first asset is at most 19 times what it counts of the second one,
there is at most one token more than units. -/
theorem lacksAtMost_one (counted : t.CountedWithin) : t.LacksAtMost 1 := by
  obtain ⟨d0, d1, chargedA, chargedB, d2, growth, isChargedA, isChargedB, invariant, isSupply⟩ :=
    t.exists_counted
  obtain ⟨d, -, -, calculated, -⟩ := t.exists_paid
  have skew := counted d0 d1 chargedA chargedB growth isChargedA isChargedB
  have leA := Exchange.chargeImbalance_le isChargedA
  have leB := Exchange.chargeImbalance_le isChargedB
  obtain ⟨depositANonneg, depositBNonneg, reserveANonneg, reserveBNonneg, -⟩ := growth
  have := Curve.le_succ_of_residual (by omega) (by omega) (by omega) invariant (Int.natCast_nonneg d)
    (t.residual_deposited_neg calculated)
  exact ⟨d, calculated, by omega⟩

/-- Where nothing is charged, a deposit of the first asset counts what the withdrawal finds. -/
theorem lacksAtMost_zero (free : t.fees = .free) (first : t.asset = .a) : t.LacksAtMost 0 := by
  obtain ⟨d0, d1, chargedA, chargedB, d2, growth, isChargedA, isChargedB, invariant, isSupply⟩ :=
    t.exists_counted
  obtain ⟨d, -, -, calculated, -⟩ := t.exists_paid
  obtain ⟨newA, newB⟩ := t.newReserves_eq
  rw [free, ← newA, Int.toNat_natCast] at isChargedA
  rw [free, ← newB, Int.toNat_natCast] at isChargedB
  rw [Exchange.eq_of_chargeImbalance_free isChargedA,
    Exchange.eq_of_chargeImbalance_free isChargedB] at invariant
  rw [first] at calculated
  refine ⟨d, by rw [first]; exact calculated, ?_⟩
  cases calculated.symm.trans invariant
  exact isSupply.le

/-! ## What the trip pays -/

/-- A trip pays for at most what the new pool had to spare. -/
theorem amount_le {units : Nat} (spares : t.SparesAtMost units) (lacks : t.LacksAtMost 1) :
    (t.payment.amount : Int) ≤ t.amount + units := by
  obtain ⟨z, isReserve, carried⟩ := spares
  obtain ⟨d', calculated, backed⟩ := lacks
  obtain ⟨d, d1, y, invariant, isShrunk, above, paid⟩ := t.exists_paid
  cases calculated.symm.trans invariant
  obtain ⟨-, -, -, -, newSupply⟩ := deposit_spec t.deposits
  have isSupply := t.isFounded.isSupply
  have mintedPos := t.mintedPos
  dsimp only at newSupply
  have kept := Exchange.le_shrunk_of_le_succ (Int.natCast_nonneg _) (by omega) (by omega) isShrunk
  have falls := Curve.reserveResidual_anti t.solvable (Int.natCast_nonneg _) kept (Int.natCast_nonneg z)
  have constant := Curve.reserveConstant_nonneg t.solvable (Int.natCast_nonneg d1)
  have stays : (z : Int) < y + 1 :=
    Curve.lt_of_quadratic constant (by omega) (falls.trans carried) (Int.lt_of_lt_of_le one_pos above)
  omega

/-- One unit is added to 14 of the first asset beside 3 of the other one. -/
def freeTrip : Trip where
  policy := {}
  fees := .free
  amp := 1
  reserveA := 14
  reserveB := 3
  asset := .a
  amount := 1
  now := 0
  later := 0
  leastMinted := 0
  leastPaid := 0
  founding := ⟨Pool.steady, 14, ⟨.nearest 14, .nearest 3, .nearest 14⟩⟩
  deposit := ⟨1, ⟨.nearest 15, .nearest 3, .nearest 15⟩⟩
  payment := ⟨.a, 1, 2, 1, 0, 0, ⟨.nearest 13, .nearest 3, .nearest 14⟩⟩
  ampPos := by decide
  ampLe := by decide
  amountPos := by decide
  mintedPos := by decide
  founds := rfl
  deposits := rfl
  pays := rfl

/-- At a trade fee of a tenth, 92 units are added to 103 of the first asset beside 2 of the other one. -/
def chargedTrip : Trip where
  policy := {}
  fees := { Fees.free with trade := ⟨.nearest 2, .nearest 20⟩ }
  amp := 1
  reserveA := 103
  reserveB := 2
  asset := .a
  amount := 92
  now := 0
  later := 0
  leastMinted := 0
  leastPaid := 0
  founding := ⟨Pool.steady, 51, ⟨.nearest 103, .nearest 2, .nearest 51⟩⟩
  deposit := ⟨29, ⟨.nearest 195, .nearest 2, .nearest 80⟩⟩
  payment := ⟨.a, 29, 93, 2, 0, 0, ⟨.nearest 102, .nearest 2, .nearest 51⟩⟩
  ampPos := by decide
  ampLe := by decide
  amountPos := by decide
  mintedPos := by decide
  founds := rfl
  deposits := rfl
  pays := rfl

/-- Let trips be taken only in pools that have at most so many units to spare, and where at most so many
tokens lack a unit.  None of them pays more than was deposited exactly if there is nothing to spare, and
no more than one token that lacks a unit.  Where one lacks it, a trip pays for at most what there is to
spare. -/
theorem no_profit_iff_none_spare (spare lack : Nat) :
    ((∀ t : Trip, t.SparesAtMost spare → t.LacksAtMost lack → (t.payment.amount : Int) ≤ t.amount) ↔
      spare = 0 ∧ lack ≤ 1) ∧
    ∀ t : Trip,
      (t.SparesAtMost spare → t.LacksAtMost 1 → (t.payment.amount : Int) ≤ t.amount + spare) ∧
      (4 * t.reserve < t.otherReserve → t.SparesAtMost 0) ∧
      (t.reserve ≤ 4 * t.otherReserve → t.SparesAtMost 1) ∧
      (t.CountedWithin → t.LacksAtMost 1) ∧
      (t.fees = .free → t.asset = .a → t.LacksAtMost 0) := by
  refine ⟨⟨fun never => ⟨?_, ?_⟩, ?_⟩, ?_⟩
  · by_contra more
    have spares : freeTrip.SparesAtMost spare := ⟨12, show 14 ≤ 12 + 1 + spare by omega, by decide⟩
    have lacks : freeTrip.LacksAtMost lack := ⟨15, rfl, show 15 ≤ 15 + lack by omega⟩
    exact absurd (never freeTrip spares lacks) (by decide)
  · by_contra more
    have spares : chargedTrip.SparesAtMost spare := ⟨102, show 103 ≤ 102 + 1 + spare by omega, by decide⟩
    have lacks : chargedTrip.LacksAtMost lack := ⟨78, rfl, show 80 ≤ 78 + lack by omega⟩
    exact absurd (never chargedTrip spares lacks) (by decide)
  · rintro ⟨rfl, few⟩ t spares ⟨d, calculated, backed⟩
    have := t.amount_le spares ⟨d, calculated, by omega⟩
    omega
  · intro t
    exact ⟨t.amount_le, t.sparesAtMost_zero, t.sparesAtMost_one, t.lacksAtMost_one, t.lacksAtMost_zero⟩

/-- The reserve has one unit to spare, and the deposit of one unit pays two. -/
theorem pays_two_for_one :
    (freeTrip.fees = .free ∧ freeTrip.amp = 1 ∧ freeTrip.reserveA = 14 ∧ freeTrip.reserveB = 3 ∧
      freeTrip.asset = .a ∧ freeTrip.amount = 1 ∧ freeTrip.payment.amount = 2) ∧
    ¬ ∀ t : Trip, (t.payment.amount : Int) ≤ t.amount :=
  ⟨⟨rfl, rfl, rfl, rfl, rfl, rfl, rfl⟩, fun never => absurd (never freeTrip) (by decide)⟩

end Trip

end Quote

end PegPool
