import Mathlib.Algebra.Order.Ring.Int
import PegPool.Proofs.Outcome
import PegPool.Word

/-!
# Faults that are caught

A fault is caught if it is one of arithmetic and all of its numbers can be written.  A calculation is
`Caught` if it can have no other fault, and if its value, where it comes to one, has a property that
later steps rely on.  Chains of such steps are such calculations (`Caught.bind`).

The faults of an operation on a word are caught if its operand is `Brief`, of at most 4000 digits: the
word adds at most 78 of the 300 that remain.  Every word is brief itself.
-/

namespace PegPool

namespace Text

theorem isWritable_iff {z : Int} : isWritable z = true ↔ z.natAbs < writingLimit :=
  decide_eq_true_iff

/-- The first number of more than 4000 digits. -/
@[irreducible]
def briefLimit : Nat := 10 ^ 4000

theorem word_le_briefLimit : 2 ^ 256 ≤ briefLimit := by
  decide +kernel

theorem word_add_briefLimit_le : 2 ^ 256 + briefLimit ≤ writingLimit := by
  decide +kernel

theorem briefLimit_add_briefLimit_le : briefLimit + briefLimit ≤ writingLimit := by
  decide +kernel

theorem word_mul_briefLimit_le : 2 ^ 256 * briefLimit ≤ writingLimit := by
  decide +kernel

/-- An integer of at most 4000 digits. -/
def Brief (z : Int) : Prop :=
  z.natAbs < briefLimit

instance (z : Int) : Decidable (Brief z) :=
  inferInstanceAs (Decidable (_ < _))

variable {z : Int}

theorem Brief.of_lt (less : z.natAbs < 2 ^ 256) : Brief z :=
  Nat.lt_of_lt_of_le less word_le_briefLimit

theorem Brief.nat {n : Nat} (less : n < 2 ^ 256) : Brief n :=
  .of_lt (by omega)

theorem Brief.word (w : Word) : Brief w.val :=
  .nat w.lt

theorem Brief.isWritable (brief : Brief z) : isWritable z = true := by
  have := word_add_briefLimit_le
  unfold Brief at brief
  rw [isWritable_iff]
  omega

theorem isWritable_of_lt (less : z.natAbs < 2 ^ 256) : isWritable z = true :=
  (Brief.of_lt less).isWritable

theorem isWritable_nat {n : Nat} (less : n < 2 ^ 256) : isWritable n = true :=
  (Brief.nat less).isWritable

theorem isWritable_word (w : Word) : isWritable w.val = true :=
  (Brief.word w).isWritable

/-- A word away from a brief integer there are only numbers that can be written. -/
theorem Brief.isWritable_of_near (brief : Brief z) {n : Int} (near : n.natAbs ≤ 2 ^ 256 + z.natAbs) :
    Text.isWritable n = true := by
  have := word_add_briefLimit_le
  unfold Brief at brief
  rw [isWritable_iff]
  omega

theorem Brief.isWritable_add (brief : Brief z) {n : Int} (brief' : Brief n) :
    Text.isWritable (z + n) = true := by
  have := briefLimit_add_briefLimit_le
  unfold Brief at brief brief'
  rw [isWritable_iff]
  omega

theorem Brief.isWritable_mul (brief : Brief z) (w : Word) : Text.isWritable (w.val * z) = true := by
  have := word_mul_briefLimit_le
  rw [isWritable_iff, Int.natAbs_mul, Int.natAbs_natCast]
  have product : w.val * z.natAbs ≤ 2 ^ 256 * briefLimit :=
    Nat.mul_le_mul (by have := w.lt; omega) (Nat.le_of_lt brief)
  have : w.val * z.natAbs < 2 ^ 256 * briefLimit :=
    Nat.mul_lt_mul_of_lt_of_le (by have := w.lt; omega) (Nat.le_of_lt brief) (by decide +kernel)
  omega

end Text

open Text (Brief)

theorem Fault.isCaught_of_numbers {fault : Fault} (arithmetic : fault.isArithmetic = true)
    (writable : ∀ z ∈ fault.numbers, Text.isWritable z = true) : fault.isCaught = true := by
  rw [isCaught, arithmetic, isWritable, List.all_eq_true.mpr writable]
  rfl

variable {α β : Type}

/-- Every fault of the computation is caught, and a value of it has the property. -/
structure Caught (x : Except Fault α) (P : α → Prop := fun _ => True) : Prop where
  faults : ∀ fault, x = .error fault → fault.isCaught = true
  value : ∀ a, x = .ok a → P a

namespace Caught

variable {x : Except Fault α} {f : α → Except Fault β} {P Q : α → Prop} {R : β → Prop}

theorem ok {a : α} (holds : P a) : Caught (.ok a) P where
  faults fault failed := by cases failed
  value a' isValue := by
    cases isValue
    exact holds

theorem pure {a : α} (holds : P a) : Caught (pure a) P :=
  .ok holds

theorem error {fault : Fault} (caught : fault.isCaught = true) : Caught (.error fault) P where
  faults fault' failed := by
    cases failed
    exact caught
  value a isValue := by cases isValue

theorem bind (first : Caught x P) (rest : ∀ a, P a → Caught (f a) R) : Caught (x >>= f) R := by
  cases x with
  | error fault => exact .error (first.faults fault rfl)
  | ok a => exact rest a (first.value a rfl)

theorem andThen (first : Caught x P) (rest : ∀ a, Caught (f a) R) : Caught (x >>= f) R :=
  first.bind fun a _ => rest a

/-- What is known of a value may be that it is the value. -/
theorem withValue (caught : Caught x P) : Caught x fun a => x = .ok a where
  faults := caught.faults
  value _ isValue := isValue

theorem exists_fault (caught : Caught x P) (noValue : ∀ a, x ≠ .ok a) :
    ∃ fault : Fault, x = .error fault ∧ fault.isCaught = true := by
  cases x with
  | error fault => exact ⟨fault, rfl, caught.faults fault rfl⟩
  | ok a => exact absurd rfl (noValue a)

end Caught

/-- Where both computations have a fault, both faults are caught or neither is. -/
def FailAlike (x : Except Fault α) (y : Except Fault β) : Prop :=
  ∀ fault fault', x = .error fault → y = .error fault' → fault.isCaught = fault'.isCaught

namespace FailAlike

variable {γ δ : Type} {x : Except Fault α} {y : Except Fault β} {f : α → Except Fault γ}
  {g : β → Except Fault δ} {P : α → Prop} {Q : β → Prop}

theorem of_caught (first : Caught x P) (second : Caught y Q) : FailAlike x y := by
  intro fault fault' failed failed'
  rw [first.faults fault failed, second.faults fault' failed']

theorem bind (first : FailAlike x y) (together : (∃ a, x = .ok a) ↔ ∃ b, y = .ok b)
    (rest : ∀ a b, x = .ok a → y = .ok b → FailAlike (f a) (g b)) : FailAlike (x >>= f) (y >>= g) := by
  intro fault fault' failed failed'
  cases isX : x with
  | ok a =>
    obtain ⟨b, isY⟩ := together.mp ⟨a, isX⟩
    rw [isX, ok_bind] at failed
    rw [isY, ok_bind] at failed'
    exact rest a b isX isY fault fault' failed failed'
  | error e =>
    cases isY : y with
    | ok b =>
      obtain ⟨a, isValue⟩ := together.mpr ⟨b, isY⟩
      cases isX.symm.trans isValue
    | error e' =>
      rw [isX, error_bind] at failed
      rw [isY, error_bind] at failed'
      cases failed
      cases failed'
      exact first _ _ isX isY

end FailAlike

namespace Word

variable (s : Word) {o : Int}

theorem ofInt_caught (writable : Text.isWritable o = true) : Caught (ofInt o) := by
  have shown : ∀ z ∈ [o], Text.isWritable z = true := by simp [writable]
  unfold ofInt
  split
  · exact .error (Fault.isCaught_of_numbers rfl shown)
  · split
    · exact .ok trivial
    · exact .error (Fault.isCaught_of_numbers rfl shown)

theorem isCaught_of_ofInt {fault : Fault} (failed : ofInt o = .error fault) :
    fault.isCaught = Text.isWritable o := by
  unfold ofInt at failed
  split at failed
  · cases failed
    simp [Fault.isCaught, Fault.isArithmetic, Fault.isWritable, Fault.numbers]
  · split at failed
    · cases failed
    · cases failed
      simp [Fault.isCaught, Fault.isArithmetic, Fault.isWritable, Fault.numbers]

theorem add_caught (brief : Brief o) : Caught (s.add o) :=
  ofInt_caught (brief.isWritable_of_near (by have := s.lt; omega))

theorem mul_caught (brief : Brief o) : Caught (s.mul o) :=
  ofInt_caught (brief.isWritable_mul s)

theorem sub_caught (brief : Brief o) : Caught (s.sub o) := by
  have difference : Text.isWritable (s.val - o) = true :=
    brief.isWritable_of_near (by have := s.lt; omega)
  unfold sub
  split
  · have shown : ∀ z ∈ [(s.val : Int), o, s.val - o], Text.isWritable z = true := by
      simp [Text.isWritable_word s, brief.isWritable, difference]
    exact .error (Fault.isCaught_of_numbers rfl shown)
  · exact ofInt_caught difference

theorem dist_caught (brief : Brief o) : Caught (s.dist o) := by
  have := s.lt
  unfold dist
  split
  · exact ofInt_caught (brief.isWritable_of_near (by omega))
  · exact ofInt_caught (brief.isWritable_of_near (by omega))

theorem shown_val : ∀ z ∈ [(s.val : Int)], Text.isWritable z = true := by
  simp [Text.isWritable_word s]

theorem div_caught : Caught (s.div o) := by
  unfold div
  split
  · exact .error (Fault.isCaught_of_numbers rfl (shown_val s))
  · -- rounding takes a quotient further from zero by one at most
    have quotient := Int.natAbs_ediv_le_natAbs s.val o
    have rounded := Int.fdiv_eq_ediv (a := s.val) (b := o)
    have near : ((s.val : Int).fdiv o).natAbs ≤ 2 ^ 256 + (0 : Int).natAbs := by
      have := s.lt
      split at rounded <;> omega
    exact ofInt_caught (Brief.isWritable_of_near (.of_lt (by decide)) near)

theorem narrow_caught : Caught s.narrow fun n => n < 2 ^ 64 := by
  unfold narrow
  split
  case isTrue fits => exact .ok fits
  case isFalse =>
    exact .error (Fault.isCaught_of_numbers rfl (shown_val s))

theorem narrowed_caught : Caught s.narrowed :=
  (narrow_caught s).andThen fun _ => .pure trivial

end Word

end PegPool
