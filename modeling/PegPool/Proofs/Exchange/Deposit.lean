import PegPool.Proofs.Exchange.Monotone

/-!
# What a deposit mints

A deposit solves the curve for the reserves before and after it, and is refused unless the invariant
grows (`Growth`).  In the ratio of the reserves it mints its share of the supply; otherwise the curve is
solved once more, for the reserves after the charge on their imbalance (`Mints`).
-/

namespace PegPool

/-- A product that is divided in a word is the fraction that `mulDiv` gives. -/
theorem mulDiv_eq_ok_of_word {value numerator denominator : Int} {n : Nat}
    (numeratorNonneg : 0 ≤ numerator) (numeratorFits : numerator < 2 ^ 256)
    (denominatorNonneg : 0 ≤ denominator) (denominatorFits : denominator < 2 ^ 256) :
    mulDiv value numerator denominator = .ok n ↔ ∃ v : Word, (v.val : Int) = value ∧
      ∃ product : Word, (product.val : Int) = v.val * numerator ∧ ∃ quotient : Word,
        (denominator ≠ 0 ∧ (quotient.val : Int) = (product.val : Int).fdiv denominator) ∧
        n = quotient.val ∧ quotient.val < 2 ^ 64 := by
  rw [mulDiv_eq_ok]
  constructor
  · rintro ⟨⟨nonneg, fits⟩, -, ⟨positive, -⟩, productFits, isQuotient, small⟩
    obtain ⟨v, isV⟩ := Word.exists_val_eq nonneg fits
    obtain ⟨product, isProduct⟩ := Word.exists_val_eq (mul_nonneg nonneg numeratorNonneg) productFits
    obtain ⟨quotient, isWord⟩ := Word.exists_val_eq (z := n) (by omega) (by omega)
    exact ⟨v, isV, product, by rw [isProduct, isV], quotient,
      ⟨positive.ne', by rw [isWord, isProduct, isQuotient]⟩, by omega, by omega⟩
  · rintro ⟨v, rfl, product, isProduct, quotient, ⟨nonzero, isQuotient⟩, rfl, small⟩
    have valueFits := v.lt
    have productFits := product.lt
    rw [isProduct] at isQuotient
    exact ⟨by omega, by omega, by omega, by omega, isQuotient, small⟩

namespace Exchange

variable {cap n : Nat} {fees : Fees} {amp depositA depositB reserveA reserveB supply : Int}

/-- A deposit raises the invariant from `d0` to `d1`. -/
structure Growth (cap : Nat) (amp depositA depositB reserveA reserveB : Int) (d0 d1 : Nat) :
    Prop where
  depositANonneg : 0 ≤ depositA
  depositBNonneg : 0 ≤ depositB
  reserveANonneg : 0 ≤ reserveA
  reserveBNonneg : 0 ≤ reserveB
  newAFits : reserveA + depositA < 2 ^ 64
  newBFits : reserveB + depositB < 2 ^ 64
  before : (Curve.invariant cap reserveA reserveB amp).outcome = .ok d0
  after : (Curve.invariant cap (reserveA + depositA) (reserveB + depositB) amp).outcome = .ok d1
  grows : d0 < d1

/-- A deposit that raises the invariant from `d0` to `d1` mints `n` pool tokens: its share of the
supply, or the growth that the charge on the imbalance leaves. -/
inductive Mints (cap : Nat) (fees : Fees) (amp depositA depositB reserveA reserveB supply : Int)
    (d0 d1 n : Nat) : Prop where
  | share (inRatio : depositA * reserveB = depositB * reserveA)
      (share : mulDiv supply depositA reserveA = .ok n)
  | growth {chargedA chargedB d2 : Nat} (unbalanced : depositA * reserveB ≠ depositB * reserveA)
      (isChargedA : chargeImbalance fees d0 d1 reserveA (reserveA + depositA).toNat = .ok chargedA)
      (isChargedB : chargeImbalance fees d0 d1 reserveB (reserveB + depositB).toNat = .ok chargedB)
      (invariant : (Curve.invariant cap chargedA chargedB amp).outcome = .ok d2) (le : d0 ≤ d2)
      (share : mulDiv supply (d2 - d0 : Int) d0 = .ok n)

theorem Mints.fits {d0 d1 : Nat}
    (mints : Mints cap fees amp depositA depositB reserveA reserveB supply d0 d1 n) : n < 2 ^ 64 := by
  cases mints with
  | share inRatio share => exact (mulDiv_eq_ok.mp share).2.2.2.2.2
  | growth unbalanced isChargedA isChargedB invariant le share => exact (mulDiv_eq_ok.mp share).2.2.2.2.2

theorem growth_of_mintForDeposit
    (priced : (mintForDeposit cap fees amp depositA depositB reserveA reserveB supply).outcome =
      .ok n) : ∃ d0 d1, Growth cap amp depositA depositB reserveA reserveB d0 d1 ∧
        Mints cap fees amp depositA depositB reserveA reserveB supply d0 d1 n := by
  simp only [mintForDeposit, Word.read_int, Traced.outcome_bind, Traced.outcome_ite, Traced.outcome_liftM,
    Traced.outcome_throw, error_bind, bind_eq_ok, Word.ofInt_eq_ok, Word.add_eq_ok,
    Word.narrow_eq_ok] at priced
  obtain ⟨d0, before, oldA, isOldA, newA, isNewA, _, ⟨rfl, newAFits⟩, oldB, isOldB, newB, isNewB, _,
    ⟨rfl, newBFits⟩, d1, after, priced⟩ := priced
  split at priced
  · cases priced
  · rename_i grows
    simp only [bind_eq_ok, Word.ofInt_eq_ok, Word.mul_eq_ok] at priced
    obtain ⟨paidA, isPaidA, crossA, isCrossA, paidB, isPaidB, crossB, isCrossB, priced⟩ := priced
    have isNewA' : (newA.val : Int) = reserveA + depositA := by omega
    have isNewB' : (newB.val : Int) = reserveB + depositB := by omega
    rw [isNewA', isNewB'] at after
    refine ⟨d0, d1, ⟨by omega, by omega, by omega, by omega, by omega, by omega, before, after,
      by omega⟩, ?_⟩
    rw [isPaidA] at isCrossA
    rw [isPaidB] at isCrossB
    split at priced
    · refine .share (by omega) ?_
      rw [mulDiv_eq_ok_of_word (by omega) (by omega) (by omega) (by omega)]
      simpa only [Traced.outcome_bind, Traced.outcome_liftM, bind_eq_ok, Word.ofInt_eq_ok,
        Word.mul_eq_ok, Word.div_eq_ok, Word.narrow_eq_ok] using priced
    · simp only [bind_eq_ok, Word.ofInt_eq_ok, Word.sub_eq_ok, Word.mul_eq_ok, Word.div_eq_ok,
        Word.narrow_eq_ok] at priced
      obtain ⟨chargedA, isChargedA, chargedB, isChargedB, d2, invariant, whole, isWhole, total, isTotal,
        growth, isGrowth, product, isProduct, share⟩ := priced
      have totalFits := total.lt
      rw [isGrowth, isTotal] at isProduct
      refine .growth (by omega) (by rw [← isNewA']; exact isChargedA) (by rw [← isNewB']; exact isChargedB)
        invariant (by omega) ?_
      rw [mulDiv_eq_ok_of_word (by omega) (by omega) (by omega) (by omega)]
      exact ⟨whole, isWhole, product, isProduct, share⟩

theorem mintForDeposit_of_growth {d0 d1 : Nat} (capPos : 1 ≤ cap)
    (growth : Growth cap amp depositA depositB reserveA reserveB d0 d1)
    (priced : Mints cap fees amp depositA depositB reserveA reserveB supply d0 d1 n) :
    (mintForDeposit cap fees amp depositA depositB reserveA reserveB supply).outcome = .ok n := by
  obtain ⟨depositANonneg, depositBNonneg, reserveANonneg, reserveBNonneg, newAFits, newBFits, before,
    after, grows⟩ := growth
  simp only [mintForDeposit, Word.read_int, Traced.outcome_bind, Traced.outcome_ite, Traced.outcome_liftM,
    Traced.outcome_throw, error_bind, bind_eq_ok, Word.ofInt_eq_ok, Word.add_eq_ok, Word.narrow_eq_ok]
  obtain ⟨oldA, isOldA⟩ := Word.exists_val_eq reserveANonneg (by omega)
  obtain ⟨oldB, isOldB⟩ := Word.exists_val_eq reserveBNonneg (by omega)
  obtain ⟨newA, isNewA⟩ := Word.exists_val_eq (z := reserveA + depositA) (by omega) (by omega)
  obtain ⟨newB, isNewB⟩ := Word.exists_val_eq (z := reserveB + depositB) (by omega) (by omega)
  rw [← isNewA, ← isNewB] at after
  refine ⟨d0, before, oldA, isOldA, newA, by omega, _, ⟨rfl, by omega⟩, oldB, isOldB, newB, by omega, _,
    ⟨rfl, by omega⟩, d1, after, ?_⟩
  rw [if_neg (by omega)]
  obtain ⟨paidA, isPaidA⟩ := Word.exists_val_eq depositANonneg (by omega)
  obtain ⟨paidB, isPaidB⟩ := Word.exists_val_eq depositBNonneg (by omega)
  have crossABound : depositA * reserveB < 2 ^ 64 * 2 ^ 64 :=
    mul_lt_mul'' (by omega) (by omega) depositANonneg reserveBNonneg
  have crossBBound : depositB * reserveA < 2 ^ 64 * 2 ^ 64 :=
    mul_lt_mul'' (by omega) (by omega) depositBNonneg reserveANonneg
  obtain ⟨crossA, isCrossA⟩ := Word.exists_val_eq (mul_nonneg depositANonneg reserveBNonneg) (by omega)
  obtain ⟨crossB, isCrossB⟩ := Word.exists_val_eq (mul_nonneg depositBNonneg reserveANonneg) (by omega)
  simp only [bind_eq_ok, Word.ofInt_eq_ok, Word.mul_eq_ok]
  refine ⟨paidA, isPaidA, crossA, by rw [isCrossA, isPaidA], paidB, isPaidB, crossB,
    by rw [isCrossB, isPaidB], ?_⟩
  cases priced with
  | share inRatio share =>
    rw [if_pos (by omega)]
    rw [mulDiv_eq_ok_of_word (by omega) (by omega) (by omega) (by omega)] at share
    simpa only [Traced.outcome_bind, Traced.outcome_liftM, bind_eq_ok, Word.ofInt_eq_ok,
      Word.mul_eq_ok, Word.div_eq_ok, Word.narrow_eq_ok] using share
  | @growth chargedA chargedB d2 unbalanced isChargedA isChargedB invariant le share =>
    have d2Fits := Curve.invariant_fits capPos invariant
    rw [if_neg (by omega)]
    rw [← isNewA] at isChargedA
    rw [← isNewB] at isChargedB
    obtain ⟨total, isTotal⟩ := Word.exists_val_eq (z := d2) (by omega) (by omega)
    obtain ⟨growth, isGrowth⟩ := Word.exists_val_eq (z := d2 - d0) (by omega) (by omega)
    rw [mulDiv_eq_ok_of_word (by omega) (by omega) (by omega) (by omega), ← isGrowth] at share
    obtain ⟨whole, isWhole, share⟩ := share
    simp only [bind_eq_ok, Word.ofInt_eq_ok, Word.sub_eq_ok, Word.mul_eq_ok, Word.div_eq_ok,
      Word.narrow_eq_ok]
    exact ⟨chargedA, isChargedA, chargedB, isChargedB, d2, invariant, whole, isWhole, total, isTotal,
      growth, by omega, share⟩

end Exchange

end PegPool
