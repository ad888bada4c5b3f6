import Mathlib.Algebra.Order.Ring.Int
import Mathlib.Tactic.Ring
import PegPool.Proofs.Outcome
import PegPool.Word

/-!
# Words are exact

Every operation on words has a value exactly if a word holds the exact result, and then it is that
word.  The bounds of a word are part of it, so the statements need not mention them:
`(w.val : Int) = z` already says that `z` is neither negative nor too wide.
-/

namespace PegPool.Word

theorem exists_val_eq {z : Int} (nonneg : 0 ≤ z) (fits : z < 2 ^ 256) :
    ∃ w : Word, (w.val : Int) = z :=
  ⟨⟨z.toNat, by omega⟩, Int.toNat_of_nonneg nonneg⟩

theorem ofInt_eq_ok {z : Int} {w : Word} : ofInt z = .ok w ↔ (w.val : Int) = z := by
  have fits := w.lt
  unfold ofInt
  split
  · simp only [reduceCtorEq, false_iff]
    omega
  · split
    · simp only [Except.ok.injEq, Word.ext_iff]
      omega
    · simp only [reduceCtorEq, false_iff]
      omega

@[simp] theorem read_int (z : Int) : read (.int z) = ofInt z := rfl

theorem add_eq_ok {s w : Word} {o : Int} : s.add o = .ok w ↔ (w.val : Int) = s.val + o :=
  ofInt_eq_ok

theorem mul_eq_ok {s w : Word} {o : Int} : s.mul o = .ok w ↔ (w.val : Int) = s.val * o :=
  ofInt_eq_ok

theorem sub_eq_ok {s w : Word} {o : Int} : s.sub o = .ok w ↔ (w.val : Int) = s.val - o := by
  unfold sub
  split
  · simp only [reduceCtorEq, false_iff]
    omega
  · exact ofInt_eq_ok

theorem div_eq_ok {s w : Word} {o : Int} :
    s.div o = .ok w ↔ o ≠ 0 ∧ (w.val : Int) = (s.val : Int).fdiv o := by
  unfold div
  split
  · simp [*]
  · simp [*, ofInt_eq_ok]

theorem narrow_eq_ok {s : Word} {n : Nat} : s.narrow = .ok n ↔ n = s.val ∧ s.val < 2 ^ 64 := by
  unfold narrow
  split
  case isTrue fits =>
    rw [Except.ok.injEq]
    omega
  case isFalse wide =>
    simp only [reduceCtorEq, false_iff]
    omega

theorem narrowed_eq_ok {s w : Word} : s.narrowed = .ok w ↔ w = s ∧ s.val < 2 ^ 64 := by
  simp only [narrowed, bind_eq_ok, narrow_eq_ok, pure_eq_ok]
  constructor
  · rintro ⟨n, ⟨rfl, fits⟩, rfl⟩
    exact ⟨rfl, fits⟩
  · rintro ⟨rfl, fits⟩
    exact ⟨_, ⟨rfl, fits⟩, rfl⟩

theorem fdiv_bounds {n d : Int} (positive : 0 < d) :
    n.fdiv d * d ≤ n ∧ n < (n.fdiv d + 1) * d := by
  rw [Int.fdiv_eq_ediv_of_nonneg _ positive.le]
  constructor
  · exact Int.ediv_mul_le _ positive.ne'
  · rw [add_mul, one_mul]
    exact Int.lt_ediv_add_one_mul_self n positive |>.trans_eq (by ring)

/-! ## Words for bounded results -/

section Bounded

variable {x y m n : Int}

theorem exists_add (xNonneg : 0 ≤ x) (yNonneg : 0 ≤ y) (xLe : x ≤ m) (yLe : y ≤ n)
    (fits : m + n < 2 ^ 256) : ∃ w : Word, (w.val : Int) = x + y ∧ (w.val : Int) ≤ m + n := by
  obtain ⟨w, isSum⟩ := exists_val_eq (z := x + y) (by omega) (by omega)
  exact ⟨w, isSum, by omega⟩

theorem exists_mul (xNonneg : 0 ≤ x) (yNonneg : 0 ≤ y) (xLe : x ≤ m) (yLe : y ≤ n)
    (fits : m * n < 2 ^ 256) : ∃ w : Word, (w.val : Int) = x * y ∧ (w.val : Int) ≤ m * n := by
  have atMost : x * y ≤ m * n := mul_le_mul xLe yLe yNonneg (by omega)
  obtain ⟨w, isProduct⟩ := exists_val_eq (mul_nonneg xNonneg yNonneg) (by omega)
  exact ⟨w, isProduct, by omega⟩

theorem exists_div (xNonneg : 0 ≤ x) (yPos : 0 < y) (xLe : x ≤ m) (fits : m < 2 ^ 256) :
    ∃ w : Word, (w.val : Int) = x.fdiv y ∧ (w.val : Int) ≤ m := by
  have nonneg : 0 ≤ x.fdiv y := Int.fdiv_nonneg xNonneg yPos.le
  obtain ⟨atMost, -⟩ := fdiv_bounds (n := x) yPos
  have : x.fdiv y * 1 ≤ x.fdiv y * y := mul_le_mul_of_nonneg_left (by omega) nonneg
  obtain ⟨w, isQuotient⟩ := exists_val_eq nonneg (by omega)
  exact ⟨w, isQuotient, by omega⟩

end Bounded

end PegPool.Word
