import PegPool.Proofs.Curve.Domain
import PegPool.Proofs.Curve.SmallPools

/-!
# The order of the reserves

The invariant divides by one reserve at a time, so it may depend on which of them is the first one.
Whether there is an invariant does not, and as long as the first reserve is at most 19 times the
second one the other order is at most one unit lower (`le_succ_of_swapped`).  Nor does it depend on the
order whether a fault is caught, unless both reserves are refused and just one of them can be written
(`invariant_failAlike`).
-/

namespace PegPool

namespace Curve

variable {cap d : Nat} {amp a b : Int}

/-- The invariant does not depend on the order of the reserves. -/
def OrderFree (cap : Nat) (amp a b : Int) : Prop :=
  ∀ d : Nat, (invariant cap a b amp).outcome = .ok d ↔ (invariant cap b a amp).outcome = .ok d

theorem OrderFree.symm (free : OrderFree cap amp a b) : OrderFree cap amp b a :=
  fun d => (free d).symm

theorem InRange.swapped (range : InRange a b amp) : InRange b a amp :=
  ⟨range.bPos, range.aPos, range.ampPos, by have := range.sumFits; omega, range.bFits, range.aFits,
    range.ampFits⟩

theorem exists_invariant_swapped (capPos : 1 ≤ cap)
    (calculated : (invariant cap a b amp).outcome = .ok d) :
    ∃ d' : Nat, (invariant cap b a amp).outcome = .ok d' := by
  obtain ⟨rfl, rfl, rfl⟩ | ⟨range, -⟩ := invariant_spec capPos calculated
  · exact ⟨0, calculated⟩
  · obtain ⟨d', calculated', -⟩ := range.swapped.exists_invariant_le_sum cap
    exact ⟨d', calculated'⟩

/-- As long as the first reserve is at most 19 times the second one, the invariant exceeds that of
reserves which are not smaller by one at most. -/
theorem le_succ_of_residual {a' b' t : Int} (skew : a ≤ 19 * b) (leA : a ≤ a') (leB : b ≤ b')
    (calculated : (invariant defaultCap a b amp).outcome = .ok d) (nonneg : 0 ≤ t)
    (after : residual a' b' amp (t + 1) < 0) : (d : Int) ≤ t + 1 := by
  obtain ⟨-, -, none⟩ | ⟨range, -⟩ := invariant_spec (by decide) calculated
  · omega
  · obtain ⟨e, isInvariant, before, -⟩ := withinOneUnit_of_le_nineteen_mul range skew
    cases calculated.symm.trans isInvariant
    obtain ⟨e, isInvariant, approach, atMost⟩ := range.exists_invariant_le_sum defaultCap
    cases calculated.symm.trans isInvariant
    have dPos := approach.pos
    obtain ⟨aPos, bPos, ampPos, -⟩ := range
    have grownB := residual_mono_right aPos bPos ampPos leB (t := d - 1) (by omega) (by omega)
    have grownA := residual_mono_right (show 1 ≤ b' by omega) aPos ampPos leA (t := d - 1) (by omega)
      (by omega)
    rw [residual_comm b' a, residual_comm b' a'] at grownA
    have := le_of_residual (show 1 ≤ a' by omega) (show 1 ≤ b' by omega) ampPos nonneg
      (before.le.trans (grownB.trans grownA)) after
    omega

/-- The order of the reserves makes a difference of at most one, as long as the first one is not more
than 19 times the second one. -/
theorem le_succ_of_swapped {d d' : Nat} (aNonzero : a ≠ 0) (skew : a ≤ 19 * b)
    (calculated : (invariant defaultCap a b amp).outcome = .ok d)
    (calculated' : (invariant defaultCap b a amp).outcome = .ok d') : d ≤ d' + 1 := by
  obtain ⟨-, zero, -⟩ | ⟨-, approach⟩ := invariant_spec (by decide) calculated'
  · exact absurd zero aNonzero
  · have after := approach.after
    rw [residual_comm] at after
    have := le_succ_of_residual skew le_rfl le_rfl calculated (Int.natCast_nonneg d') after
    omega

/-! ## Faults in either order -/

open Text (Brief isWritable isWritable_word)

theorem leverage_unwritable (unwritable : isWritable amp = false) :
    ∃ fault : Fault, leverage amp = .error fault ∧ fault.isCaught = false := by
  cases read : Word.ofInt amp with
  | ok w =>
    rw [← Word.ofInt_eq_ok.mp read, isWritable_word] at unwritable
    cases unwritable
  | error fault =>
    refine ⟨fault, by rw [leverage, Word.read_int, read, error_bind], ?_⟩
    rw [Word.isCaught_of_ofInt read, unwritable]

/-- A step comes to the coefficient unless one of its divisions is by zero. -/
theorem invariantStep_unwritable (unwritable : isWritable amp = false) {sum twoA twoB d : Word}
    (dFits : d.val < 2 ^ 64) : ∃ fault : Fault, invariantStep amp sum twoA twoB d = .error fault ∧
      (fault.isCaught = true ↔ twoA.val = 0 ∨ twoB.val = 0) := by
  obtain ⟨square, isSquare, squareLe⟩ := Word.exists_mul (x := d.val) (y := d.val) (by omega) (by omega)
    (show (d.val : Int) ≤ 2 ^ 64 by omega) (show (d.val : Int) ≤ 2 ^ 64 by omega) (by norm_num)
  have squared : d.mul d = .ok square := Word.mul_eq_ok.mpr isSquare
  obtain isZero | positive := Nat.eq_zero_or_pos twoA.val
  · have divided : square.div twoA = .error (.divisionByZero square.val) := if_pos (by omega)
    refine ⟨_, by rw [invariantStep, squared, ok_bind, divided, error_bind], ?_⟩
    exact iff_of_true (square.div_caught.faults _ divided) (.inl isZero)
  obtain ⟨q, isQuotient, qLe⟩ := Word.exists_div (Int.natCast_nonneg square.val) (y := twoA.val) (by omega)
    squareLe (by norm_num)
  have divided : square.div twoA = .ok q := Word.div_eq_ok.mpr ⟨by omega, isQuotient⟩
  obtain ⟨cross, isCross, crossLe⟩ := Word.exists_mul (Int.natCast_nonneg q.val) (y := d.val) (by omega) qLe
    (show (d.val : Int) ≤ 2 ^ 64 by omega) (by norm_num)
  have crossed : q.mul d = .ok cross := Word.mul_eq_ok.mpr isCross
  obtain isZero | positive' := Nat.eq_zero_or_pos twoB.val
  · have divided' : cross.div twoB = .error (.divisionByZero cross.val) := if_pos (by omega)
    refine ⟨_, by rw [invariantStep, squared, ok_bind, divided, ok_bind, crossed, ok_bind, divided',
      error_bind], ?_⟩
    exact iff_of_true (cross.div_caught.faults _ divided') (.inr isZero)
  obtain ⟨p, isP, -⟩ := Word.exists_div (Int.natCast_nonneg cross.val) (y := twoB.val) (by omega) crossLe
    (by norm_num)
  have divided' : cross.div twoB = .ok p := Word.div_eq_ok.mpr ⟨by omega, isP⟩
  obtain ⟨fault, read, uncaught⟩ := leverage_unwritable unwritable
  refine ⟨fault, by rw [invariantStep, squared, ok_bind, divided, ok_bind, crossed, ok_bind, divided',
    ok_bind, read, error_bind], ?_⟩
  rw [uncaught]
  exact iff_of_false (by decide) (by omega)

def Fitting (ra rb : Word) : Prop :=
  (1 ≤ ra.val ∧ 1 ≤ rb.val) ∧ ra.val + rb.val < 2 ^ 64 ∧ 2 * ra.val < 2 ^ 64 ∧ 2 * rb.val < 2 ^ 64

/-- The invariant of two words has been read; what is left is the iteration. -/
theorem outcome_invariant_of_words (cap : Nat) (amp : Int) (ra rb : Word) :
    (invariant cap ra rb amp).outcome = (do
      let sum ← (← ra.add rb).narrowed
      if sum.val = 0 then return 0
      let twoA ← (← ra.mul 2).narrowed
      let twoB ← (← rb.mul 2).narrowed
      return (← settle (invariantStep amp sum twoA twoB) cap sum).value.val) := by
  have readA : Word.ofInt ra.val = .ok ra := Word.ofInt_eq_ok.mpr rfl
  have readB : Word.ofInt rb.val = .ok rb := Word.ofInt_eq_ok.mpr rfl
  simp only [invariant, Traced.outcome_bind, Traced.outcome_liftM, Traced.outcome_ite,
    Traced.outcome_pure, Traced.outcome_log, ok_bind, ite_self, Word.read_int, readA, readB]
  rfl

/-- Where the iteration takes a step, that comes to the coefficient. -/
theorem isCaught_of_fitting (capPos : 1 ≤ cap) (unwritable : isWritable amp = false) {ra rb : Word}
    (fitting : Fitting ra rb) {fault : Fault} (failed : (invariant cap ra rb amp).outcome = .error fault) :
    fault.isCaught = false := by
  obtain ⟨steps, rfl⟩ := Nat.exists_eq_add_of_le' capPos
  obtain ⟨⟨aPos, bPos⟩, sumFits, aFits, bFits⟩ := fitting
  obtain ⟨sum, isSum⟩ := Word.exists_val_eq (z := ra.val + rb.val) (by omega) (by omega)
  obtain ⟨twoA, isTwoA⟩ := Word.exists_val_eq (z := ra.val * 2) (by omega) (by omega)
  obtain ⟨twoB, isTwoB⟩ := Word.exists_val_eq (z := rb.val * 2) (by omega) (by omega)
  have step : ∃ e : Fault, invariantStep amp sum twoA twoB sum = .error e ∧
      (e.isCaught = true ↔ twoA.val = 0 ∨ twoB.val = 0) :=
    invariantStep_unwritable unwritable (by omega)
  obtain ⟨e, stepped, caught⟩ := step
  rw [outcome_invariant_of_words, Word.add_eq_ok.mpr isSum, ok_bind,
    Word.narrowed_eq_ok.mpr ⟨rfl, by omega⟩, ok_bind, if_neg (by omega), Word.mul_eq_ok.mpr isTwoA, ok_bind,
    Word.narrowed_eq_ok.mpr ⟨rfl, by omega⟩, ok_bind, Word.mul_eq_ok.mpr isTwoB, ok_bind,
    Word.narrowed_eq_ok.mpr ⟨rfl, by omega⟩, ok_bind, settle, stepped, error_bind] at failed
  cases failed
  rw [Bool.eq_false_iff, ne_eq, caught]
  omega

theorem caught_of_not_fitting (capPos : 1 ≤ cap) (unwritable : isWritable amp = false) {ra rb : Word}
    (fitting : ¬ Fitting ra rb) : Caught (invariant cap ra rb amp).outcome := by
  obtain ⟨steps, rfl⟩ := Nat.exists_eq_add_of_le' capPos
  rw [outcome_invariant_of_words]
  refine (ra.add_caught (.word rb)).withValue.bind fun _ isSum =>
    (Word.narrowed_caught _).withValue.bind fun sum isNarrow => ?_
  rw [Word.add_eq_ok] at isSum
  obtain ⟨rfl, sumFits⟩ := Word.narrowed_eq_ok.mp isNarrow
  split
  case isTrue => exact .pure trivial
  case isFalse nonzero =>
    refine (ra.mul_caught (.of_lt (by decide))).withValue.bind fun _ isTwoA =>
      (Word.narrowed_caught _).withValue.bind fun twoA isNarrowA =>
      (rb.mul_caught (.of_lt (by decide))).withValue.bind fun _ isTwoB =>
      (Word.narrowed_caught _).withValue.bind fun twoB isNarrowB => ?_
    rw [Word.mul_eq_ok] at isTwoA isTwoB
    obtain ⟨rfl, aFits⟩ := Word.narrowed_eq_ok.mp isNarrowA
    obtain ⟨rfl, bFits⟩ := Word.narrowed_eq_ok.mp isNarrowB
    have missing : twoA.val = 0 ∨ twoB.val = 0 := by
      unfold Fitting at fitting
      omega
    obtain ⟨e, stepped, caught⟩ := invariantStep_unwritable unwritable sumFits
    rw [settle, stepped, error_bind]
    exact .error (caught.mpr missing)

theorem isCaught_of_invariant (capPos : 1 ≤ cap) (unwritable : isWritable amp = false) {ra rb : Word}
    {fault : Fault} (failed : (invariant cap ra rb amp).outcome = .error fault) :
    fault.isCaught = true ↔ ¬ Fitting ra rb := by
  constructor
  · intro caught fitting
    rw [isCaught_of_fitting capPos unwritable fitting failed] at caught
    cases caught
  · intro fitting
    exact (caught_of_not_fitting capPos unwritable fitting).faults fault failed

theorem invariant_failAlike_of_words (capPos : 1 ≤ cap) (amp : Int) (ra rb : Word) :
    FailAlike (invariant cap ra rb amp).outcome (invariant cap rb ra amp).outcome := by
  cases writable : isWritable amp with
  | true =>
    exact .of_caught (invariant_caught cap (isWritable_word ra) (isWritable_word rb) writable)
      (invariant_caught cap (isWritable_word rb) (isWritable_word ra) writable)
  | false =>
    intro fault fault' failed failed'
    rw [Bool.eq_iff_iff, isCaught_of_invariant capPos writable failed,
      isCaught_of_invariant capPos writable failed']
    unfold Fitting
    omega

theorem invariant_of_first_refused {fault : Fault} (refused : Word.ofInt a = .error fault) :
    (invariant cap a b amp).outcome = .error fault := by
  simp only [invariant, Traced.outcome_bind, Traced.outcome_liftM, Word.read_int, refused, error_bind]

theorem invariant_of_second_refused {ra : Word} {fault : Fault} (read : Word.ofInt a = .ok ra)
    (refused : Word.ofInt b = .error fault) : (invariant cap a b amp).outcome = .error fault := by
  simp only [invariant, Traced.outcome_bind, Traced.outcome_liftM, Word.read_int, read, ok_bind, refused,
    error_bind]

/-- Of two numbers, neither of which is a natural number below the limit, both can be written or neither
can. -/
def ToldAlike (limit : Nat) (x y : Int) : Prop :=
  isWritable x = isWritable y ∨ (0 ≤ x ∧ x < limit) ∨ (0 ≤ y ∧ y < limit)

theorem invariant_failAlike (capPos : 1 ≤ cap) (amp : Int) (alike : ToldAlike (2 ^ 256) a b) :
    FailAlike (invariant cap a b amp).outcome (invariant cap b a amp).outcome := by
  intro fault fault' failed failed'
  cases readA : Word.ofInt a with
  | ok ra =>
    cases readB : Word.ofInt b with
    | ok rb =>
      rw [← Word.ofInt_eq_ok.mp readA, ← Word.ofInt_eq_ok.mp readB] at failed failed'
      exact invariant_failAlike_of_words capPos amp ra rb fault fault' failed failed'
    | error e =>
      cases (invariant_of_second_refused readA readB).symm.trans failed
      cases (invariant_of_first_refused readB).symm.trans failed'
      rfl
  | error e =>
    cases (invariant_of_first_refused readA).symm.trans failed
    cases readB : Word.ofInt b with
    | ok rb =>
      cases (invariant_of_second_refused readB readA).symm.trans failed'
      rfl
    | error e' =>
      cases (invariant_of_first_refused readB).symm.trans failed'
      rw [Word.isCaught_of_ofInt readA, Word.isCaught_of_ofInt readB]
      obtain same | aFits | bFits := alike
      · exact same
      · obtain ⟨w, isW⟩ := Word.exists_val_eq aFits.1 aFits.2
        cases readA.symm.trans (Word.ofInt_eq_ok.mpr isW)
      · obtain ⟨w, isW⟩ := Word.exists_val_eq bFits.1 bFits.2
        cases readB.symm.trans (Word.ofInt_eq_ok.mpr isW)

end Curve

end PegPool

