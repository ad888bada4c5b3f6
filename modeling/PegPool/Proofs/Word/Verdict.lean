import Mathlib.Algebra.Order.Ring.Int
import PegPool.Proofs.Word.Exact

/-!
# What an operation on words says

An operation on words stands for one on integers of any size.  Its outcome says one of four things
about the exact result (`Verdict`): the number itself, or why no word holds it.  For each operation
the lemma of its name says that this is the verdict on the exact result (`Verdict.ofExact`).

A power is multiplied out with every product checked.  A product that is too wide stays so under
further multiplications, so this is no other verdict than the one on the whole power (`verdict_pow`).
-/

namespace PegPool

/-- What is said about the result of an operation. -/
inductive Verdict where
  /-- A word holds the result. -/
  | number (value : Int)
  /-- There is no result as the divisor is zero. -/
  | zeroDivisor
  /-- The result is below zero. -/
  | negative
  /-- The result needs more than 256 bits. -/
  | tooWide
deriving DecidableEq, Repr

/-- The verdict on an exact result, or on a quotient that does not exist. -/
def Verdict.ofExact : Option Int → Verdict
  | none => zeroDivisor
  | some z => if z < 0 then negative else if 2 ^ 256 ≤ z then tooWide else number z

namespace Verdict

variable {z : Int}

theorem ofExact_negative (isNegative : z < 0) : ofExact (some z) = negative :=
  if_pos isNegative

theorem ofExact_tooWide (isWide : 2 ^ 256 ≤ z) : ofExact (some z) = tooWide := by
  rw [ofExact, if_neg (by omega), if_pos isWide]

theorem ofExact_number (nonneg : 0 ≤ z) (fits : z < 2 ^ 256) : ofExact (some z) = number z := by
  rw [ofExact, if_neg (by omega), if_neg (by omega)]

/-- Only a number that a word holds is said to be one. -/
theorem ofExact_eq_number {r : Option Int} (isNumber : ofExact r = number z) : r = some z := by
  unfold ofExact at isNumber
  split at isNumber
  · cases isNumber
  · split at isNumber
    · cases isNumber
    · split at isNumber
      · cases isNumber
      · cases isNumber
        rfl

end Verdict

/-- What a fault says about the result, if it is a fault of an operation on words. -/
def Fault.verdict? : Fault → Option Verdict
  | divisionByZero _ => some .zeroDivisor
  | negative _ => some .negative
  | underflow .. => some .negative
  | overflow _ => some .tooWide
  | _ => none

namespace Word

def verdict? : Except Fault Word → Option Verdict
  | .ok w => some (.number w.val)
  | .error fault => fault.verdict?

variable (s : Word) (o : Int)

theorem verdict_ofInt (z : Int) : verdict? (ofInt z) = some (.ofExact (some z)) := by
  unfold ofInt
  split
  case isTrue isNegative => rw [Verdict.ofExact_negative isNegative]; rfl
  case isFalse nonneg =>
    split
    case isTrue fits =>
      have isWord : (z.toNat : Int) = z := Int.toNat_of_nonneg (by omega)
      rw [Verdict.ofExact_number (by omega) (by omega), verdict?, isWord]
    case isFalse wide => rw [Verdict.ofExact_tooWide (by omega)]; rfl

theorem verdict_add : verdict? (s.add o) = some (.ofExact (some (s.val + o))) :=
  verdict_ofInt _

theorem verdict_mul : verdict? (s.mul o) = some (.ofExact (some (s.val * o))) :=
  verdict_ofInt _

theorem verdict_sub : verdict? (s.sub o) = some (.ofExact (some (s.val - o))) := by
  unfold sub
  split
  case isTrue isNegative => rw [Verdict.ofExact_negative isNegative]; rfl
  case isFalse nonneg => exact verdict_ofInt _

theorem verdict_subFrom : verdict? (s.subFrom o) = some (.ofExact (some (o - s.val))) := by
  unfold subFrom
  split
  case isTrue isNegative => rw [Verdict.ofExact_negative isNegative]; rfl
  case isFalse nonneg => exact verdict_ofInt _

theorem verdict_div :
    verdict? (s.div o) = some (.ofExact (if o = 0 then none else some ((s.val : Int).fdiv o))) := by
  unfold div
  split
  · rfl
  · exact verdict_ofInt _

theorem verdict_divInto : verdict? (s.divInto o) =
    some (.ofExact (if s.val = 0 then none else some (o.fdiv s.val))) := by
  unfold divInto
  split
  · rfl
  · exact verdict_ofInt _

theorem verdict_dist : verdict? (s.dist o) = some (.ofExact (some (s.val - o : Int).natAbs)) := by
  unfold dist
  split
  case isTrue below =>
    have distance : ((s.val - o : Int).natAbs : Int) = s.val - o := by omega
    rw [verdict_ofInt, distance]
  case isFalse above =>
    have distance : ((s.val - o : Int).natAbs : Int) = o - s.val := by omega
    rw [verdict_ofInt, distance]

theorem verdict_powFrom (n : Nat) (acc : Word) :
    verdict? (powFrom s acc n) = some (.ofExact (some (acc.val * (s.val : Int) ^ n))) := by
  induction n generalizing acc with
  | zero =>
    have fits := acc.lt
    rw [pow_zero, mul_one, Verdict.ofExact_number (by omega) (by omega)]
    rfl
  | succ n inductionHypothesis =>
    have said := verdict_mul acc s.val
    unfold powFrom
    rw [pow_succ', ← mul_assoc]
    cases product : acc.mul s.val with
    | ok next =>
      rw [← mul_eq_ok.mp product]
      exact inductionHypothesis next
    | error fault =>
      have isWide : 2 ^ 256 ≤ (acc.val : Int) * s.val := by
        by_contra fits
        obtain ⟨next, isNext⟩ := exists_val_eq
          (mul_nonneg (Int.natCast_nonneg acc.val) (Int.natCast_nonneg s.val)) (by omega)
        cases product.symm.trans (mul_eq_ok.mpr isNext)
      have positive : (s.val : Int) ≠ 0 := by
        intro zero
        rw [zero, mul_zero] at isWide
        omega
      have grows : (1 : Int) ≤ (s.val : Int) ^ n := one_le_pow₀ (by omega)
      have wider : (acc.val : Int) * s.val * 1 ≤ acc.val * s.val * (s.val : Int) ^ n :=
        mul_le_mul_of_nonneg_left grows (by omega)
      rw [Verdict.ofExact_tooWide (by omega), ← Verdict.ofExact_tooWide isWide, ← said, product]

theorem verdict_pow : verdict? (s.pow o) = some (.ofExact (some ((s.val : Int) ^ o.toNat))) := by
  rw [pow, verdict_powFrom, Nat.cast_one, one_mul]

end Word

end PegPool
