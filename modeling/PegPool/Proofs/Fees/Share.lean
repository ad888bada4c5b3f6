import PegPool.Fees
import PegPool.Proofs.Word.Exact

/-!
# Shares of amounts

A fee is the floor of a fraction of an amount, calculated exactly or not at all (`mulDiv_eq_ok`).  So
at a rate of at most one the fee is at most the amount (`Rate.share_le`), and at a rate below one it
leaves something of every amount that is not zero (`Rate.share_lt`).
-/

namespace PegPool

variable {value numerator denominator : Int} {n : Nat}

/-- A fraction of an amount is the floor, if all that it takes fits. -/
theorem mulDiv_eq_ok : mulDiv value numerator denominator = .ok n ↔
    (0 ≤ value ∧ value < 2 ^ 256) ∧ (0 ≤ numerator ∧ numerator < 2 ^ 256) ∧
      (0 < denominator ∧ denominator < 2 ^ 256) ∧ value * numerator < 2 ^ 256 ∧
      (n : Int) = (value * numerator).fdiv denominator ∧ n < 2 ^ 64 := by
  simp only [mulDiv, bind_eq_ok, Word.read_int, Word.ofInt_eq_ok, Word.mul_eq_ok, Word.div_eq_ok,
    Word.narrow_eq_ok]
  constructor
  · rintro ⟨v, rfl, w, rfl, product, isProduct, d, rfl, quotient, ⟨nonzero, isQuotient⟩, rfl, fits⟩
    rw [isProduct] at isQuotient
    have := v.lt
    have := w.lt
    have := d.lt
    have := product.lt
    exact ⟨by omega, by omega, by omega, by omega, isQuotient, fits⟩
  · rintro ⟨⟨nonneg, fits⟩, ⟨nonneg', fits'⟩, ⟨positive, fits''⟩, productFits, isQuotient, small⟩
    obtain ⟨v, rfl⟩ := Word.exists_val_eq nonneg fits
    obtain ⟨w, rfl⟩ := Word.exists_val_eq nonneg' fits'
    obtain ⟨d, rfl⟩ := Word.exists_val_eq positive.le fits''
    obtain ⟨product, isProduct⟩ := Word.exists_val_eq (mul_nonneg nonneg nonneg') productFits
    obtain ⟨quotient, isWord⟩ := Word.exists_val_eq (z := n) (by omega) (by omega)
    exact ⟨v, rfl, w, rfl, product, isProduct, d, rfl, quotient,
      ⟨positive.ne', by rw [isProduct, isWord, isQuotient]⟩, by omega, by omega⟩

theorem mulDiv_le (share : mulDiv value numerator denominator = .ok n)
    (atMost : numerator ≤ denominator) : (n : Int) ≤ value := by
  obtain ⟨⟨nonneg, -⟩, -, ⟨positive, -⟩, -, isQuotient, -⟩ := mulDiv_eq_ok.mp share
  obtain ⟨quotientLe, -⟩ := Word.fdiv_bounds (n := value * numerator) positive
  rw [← isQuotient] at quotientLe
  have := mul_le_mul_of_nonneg_left atMost nonneg
  exact le_of_mul_le_mul_right (by omega) positive

theorem mulDiv_lt (share : mulDiv value numerator denominator = .ok n)
    (less : numerator < denominator) (valuePos : 0 < value) : (n : Int) < value := by
  obtain ⟨-, -, ⟨positive, -⟩, -, isQuotient, -⟩ := mulDiv_eq_ok.mp share
  obtain ⟨quotientLe, -⟩ := Word.fdiv_bounds (n := value * numerator) positive
  rw [← isQuotient] at quotientLe
  have := mul_lt_mul_of_pos_left less valuePos
  exact lt_of_mul_lt_mul_right (by omega) positive.le

namespace Rate

def AtMostOne (r : Rate) : Prop :=
  r.numerator.val ≤ r.denominator.val

instance (r : Rate) : Decidable r.AtMostOne :=
  inferInstanceAs (Decidable (_ ≤ _))

variable {r : Rate} {amount : Int}

theorem share_zero (positive : 0 < r.denominator.val) : r.share (0 : Int) = .ok 0 := by
  have numeratorFits := r.numerator.lt
  have denominatorFits := r.denominator.lt
  exact mulDiv_eq_ok.mpr ⟨by decide, by omega, by omega, by omega, by rw [zero_mul, Int.zero_fdiv]; rfl,
    by decide⟩

theorem share_eq_self (positive : 0 < r.denominator.val)
    (full : r.numerator.val = r.denominator.val) (fits : n < 2 ^ 64) :
    r.share (n : Int) = .ok n := by
  have denominatorFits := r.denominator.lt
  have product : (n : Int) * r.denominator.val < 2 ^ 64 * 2 ^ 64 :=
    mul_lt_mul'' (by omega) (by omega) (by omega) (by omega)
  refine mulDiv_eq_ok.mpr ⟨by omega, by omega, by omega, ?_, ?_, fits⟩
  · rw [full]
    omega
  · rw [full, Int.mul_fdiv_cancel _ (by omega)]

theorem share_le (legal : r.AtMostOne) (charged : r.share amount = .ok n) : (n : Int) ≤ amount :=
  mulDiv_le charged (Int.ofNat_le.mpr legal)

theorem share_lt (less : r.numerator.val < r.denominator.val) (charged : r.share amount = .ok n)
    (amountPos : 0 < amount) : (n : Int) < amount :=
  mulDiv_lt charged (Int.ofNat_lt.mpr less) amountPos

end Rate

/-- The administrator gets at most all of a fee. -/
structure Fees.AdminAtMostOne (f : Fees) : Prop where
  trade : f.adminTrade.AtMostOne
  withdraw : f.adminWithdraw.AtMostOne

/-- No rate of the schedule is above one. -/
structure Fees.AtMostOne (f : Fees) : Prop where
  adminTrade : f.adminTrade.AtMostOne
  adminWithdraw : f.adminWithdraw.AtMostOne
  trade : f.trade.AtMostOne
  withdraw : f.withdraw.AtMostOne

theorem Fees.AtMostOne.admin {f : Fees} (legal : f.AtMostOne) : f.AdminAtMostOne :=
  ⟨legal.adminTrade, legal.adminWithdraw⟩

end PegPool
