import PegPool.Proofs.Word.Verdict
import PegPool.Register

/-!
# A register calculates exactly

The register stands for an integer of any size.  A calculation with an operand that counts as an integer
(`Number`) gives the exact result or says why no word holds it (`verdict_run`).  Over a run, the
calculations that failed leave no trace: the register holds what the others come to on integers
(`evaluate_successful`).

Comparisons of the register with a number are those of the two integers, and so is the one of their
hashes (`AgreesWith`).
-/

namespace PegPool.Register

/-- A value that counts as an integer. -/
structure Number where
  value : Value
  int : Int
  counts : value.int? = some int

/-- An operation on two integers.  The sum and the product are the same with the operands the other way
round. -/
inductive Calculation where
  | sum
  | difference
  | differenceFrom
  | product
  | quotient
  | quotientInto
  | distance
  | power
deriving DecidableEq, Repr

namespace Calculation

def step (x : Value) : Calculation → Step
  | sum => .add x
  | difference => .sub x
  | differenceFrom => .subFrom x
  | product => .mul x
  | quotient => .div x
  | quotientInto => .divInto x
  | distance => .dist x
  | power => .pow x

def onWord (s : Word) (o : Int) : Calculation → Except Fault Word
  | sum => s.add o
  | difference => s.sub o
  | differenceFrom => s.subFrom o
  | product => s.mul o
  | quotient => s.div o
  | quotientInto => s.divInto o
  | distance => s.dist o
  | power => s.pow o

/-- The exact result, none of a division by zero.  Quotients are rounded toward minus infinity, and an
exponent below zero counts as zero. -/
def exact (s o : Int) : Calculation → Option Int
  | sum => some (s + o)
  | difference => some (s - o)
  | differenceFrom => some (o - s)
  | product => some (s * o)
  | quotient => if o = 0 then none else some (s.fdiv o)
  | quotientInto => if s = 0 then none else some (o.fdiv s)
  | distance => some (s - o).natAbs
  | power => some (s ^ o.toNat)

theorem verdict_onWord (c : Calculation) (s : Word) (o : Int) :
    Word.verdict? (c.onWord s o) = some (.ofExact (c.exact s.val o)) := by
  cases c with
  | sum => exact s.verdict_add o
  | difference => exact s.verdict_sub o
  | differenceFrom => exact s.verdict_subFrom o
  | product => exact s.verdict_mul o
  | quotient => exact s.verdict_div o
  | quotientInto =>
    simp only [exact, onWord, Int.natCast_eq_zero]
    exact s.verdict_divInto o
  | distance => exact s.verdict_dist o
  | power => exact s.verdict_pow o

end Calculation

/-! ## One calculation -/

def Failure.verdict? : Failure → Option Verdict
  | fault f => f.verdict?
  | underflow .. => some .negative
  | divisionByZero _ => some .zeroDivisor
  | overflow _ => some .tooWide
  | notCountable _ => none

/-- What the outcome of a step says about the result, if it gives a word. -/
def verdict? : Except Failure Answer → Option Verdict
  | .ok (.word w) => some (.number w.val)
  | .ok _ => none
  | .error failure => failure.verdict?

theorem verdict_checked (x : Except Fault Word) : verdict? (checked x) = Word.verdict? x := by
  cases x with
  | ok w => rfl
  | error fault => rfl

theorem verdict_shownAs (minuend subtrahend : String) (x : Except Fault Word) :
    verdict? (shownAs minuend subtrahend x) = Word.verdict? x := by
  cases x with
  | ok w => rfl
  | error fault => cases fault <;> rfl

theorem verdict_divInto_flag (acc : Word) (b : Bool) :
    verdict? (divInto acc (.flag b)) = Word.verdict? (acc.divInto (flagValue b)) := by
  simp only [divInto]
  cases acc.divInto (flagValue b) with
  | ok w => rfl
  | error fault => cases fault <;> rfl

theorem verdict_step (acc : Word) (c : Calculation) (x : Number) :
    verdict? ((c.step x.value).run acc) = Word.verdict? (c.onWord acc x.int) := by
  obtain ⟨value, z, counts⟩ := x
  -- only truth values have steps of their own, which show them as they were given
  cases value with
  | int z' => cases counts; cases c <;> exact verdict_checked _
  | word w => cases counts; cases c <;> exact verdict_checked _
  | flag b =>
    cases counts
    cases c with
    | difference => exact verdict_shownAs _ _ _
    | differenceFrom => exact verdict_shownAs _ _ _
    | quotientInto => exact verdict_divInto_flag acc b
    | sum | product | quotient | distance | power => exact verdict_checked _
  | real x => cases counts
  | other kind => cases counts

/-- A step with a number gives the exact result or says why no word holds it. -/
theorem verdict_run (acc : Word) (c : Calculation) (x : Number) :
    verdict? ((c.step x.value).run acc) = some (.ofExact (c.exact acc.val x.int)) :=
  (verdict_step acc c x).trans (c.verdict_onWord acc x.int)

/-! ## Runs -/

structure Move where
  calculation : Calculation
  operand : Number

namespace Move

def step (m : Move) : Step := m.calculation.step m.operand.value

def exact (m : Move) (z : Int) : Option Int := m.calculation.exact z m.operand.int

/-- A move puts its exact result into the register, or fails and leaves it alone. -/
theorem run_cases (acc : Word) (m : Move) :
    (∃ w, m.step.run acc = .ok (.word w) ∧ m.exact acc.val = some (w.val : Int) ∧
      m.step.after acc = w) ∨
      ∃ failure, m.step.run acc = .error failure ∧ m.step.after acc = acc := by
  have said := verdict_run acc m.calculation m.operand
  change verdict? (m.step.run acc) = some (.ofExact (m.exact acc.val)) at said
  unfold Step.after
  cases ran : m.step.run acc with
  | error failure => exact .inr ⟨failure, rfl, rfl⟩
  | ok answer =>
    rw [ran] at said
    cases answer with
    | word w => exact .inl ⟨w, rfl, Verdict.ofExact_eq_number (Option.some.inj said).symm, rfl⟩
    | int | flag | text | nothing => cases said

end Move

/-- The moves of a run that do not fail. -/
def successful (acc : Word) : List Move → List Move
  | [] => []
  | m :: rest => match m.step.run acc with
    | .ok _ => m :: successful (m.step.after acc) rest
    | .error _ => successful acc rest

/-- What moves come to on integers of any size, if no divisor is zero. -/
def evaluate (z : Int) (moves : List Move) : Option Int :=
  moves.foldlM (fun z m => m.exact z) z

/-- After a run the register holds what the moves that did not fail come to. -/
theorem evaluate_successful (acc : Word) (moves : List Move) :
    evaluate acc.val (successful acc moves) = some ((run acc (moves.map Move.step)).val : Int) := by
  induction moves generalizing acc with
  | nil => rfl
  | cons m rest inductionHypothesis =>
    have next := inductionHypothesis (m.step.after acc)
    -- the rest starts from the register after the first move, whether that failed or not
    rw [List.map_cons, run, List.foldl_cons, ← run]
    obtain ⟨w, ran, isExact, after⟩ | ⟨failure, ran, after⟩ := m.run_cases acc
    · rw [after] at next ⊢
      rw [successful, ran]
      simp only [evaluate, List.foldlM_cons, isExact, after]
      exact next
    · rw [after] at next ⊢
      rw [successful, ran]
      exact next

/-! ## Comparisons -/

/-- The register compares with a number as its integer does, in size and by hash. -/
structure AgreesWith (acc : Word) (x : Number) : Prop where
  eq : (Step.eq x.value).run acc = .ok (.flag (decide ((acc.val : Int) = x.int)))
  ne : (Step.ne x.value).run acc = .ok (.flag (decide ((acc.val : Int) ≠ x.int)))
  lt : (Step.lt x.value).run acc = .ok (.flag (decide ((acc.val : Int) < x.int)))
  le : (Step.le x.value).run acc = .ok (.flag (decide ((acc.val : Int) ≤ x.int)))
  gt : (Step.gt x.value).run acc = .ok (.flag (decide ((acc.val : Int) > x.int)))
  ge : (Step.ge x.value).run acc = .ok (.flag (decide ((acc.val : Int) ≥ x.int)))
  sameHash : (Step.sameHash x.value).run acc =
    .ok (.flag (decide (Word.hashInt acc.val = Word.hashInt x.int)))

theorem equals_eq (acc : Word) (x : Number) :
    equals acc x.value = decide ((acc.val : Int) = x.int) := by
  rw [equals, x.counts, Bool.eq_iff_iff, beq_iff_eq, Option.some_inj, decide_eq_true_iff, eq_comm]

theorem level_eq (acc : Word) (x : Number) : level acc x.value = decide ((acc.val : Int) = x.int) := by
  rw [← equals_eq]
  obtain ⟨value, z, counts⟩ := x
  cases value with
  | real x => cases counts
  | int | flag | word | other => rfl

theorem below_eq (acc : Word) (x : Number) : below acc x.value = decide ((acc.val : Int) < x.int) := by
  obtain ⟨value, z, counts⟩ := x
  cases value with
  | real x => cases counts
  | other kind => cases counts
  | int | flag | word => cases counts; rfl

theorem above_eq (acc : Word) (x : Number) : above acc x.value = decide (x.int < (acc.val : Int)) := by
  obtain ⟨value, z, counts⟩ := x
  cases value with
  | real x => cases counts
  | other kind => cases counts
  | int | flag | word => cases counts; rfl

theorem hash_eq (x : Number) : x.value.hash = Word.hashInt x.int := by
  obtain ⟨value, z, counts⟩ := x
  cases value with
  | real x => cases counts
  | other kind => cases counts
  | int | flag | word => cases counts; rfl

theorem agreesWith (acc : Word) (x : Number) : AgreesWith acc x where
  eq := by rw [Step.run, equals_eq]
  ne := by rw [Step.run, equals_eq, decide_not]
  lt := by rw [Step.run, below_eq]
  le := by
    have either : decide ((acc.val : Int) < x.int ∨ (acc.val : Int) = x.int) =
        decide ((acc.val : Int) ≤ x.int) := by
      rw [decide_eq_decide, le_iff_lt_or_eq]
    rw [Step.run, below_eq, level_eq, ← Bool.decide_or, either]
  gt := by rw [Step.run, above_eq]
  ge := by
    have either : decide (x.int < (acc.val : Int) ∨ (acc.val : Int) = x.int) =
        decide ((acc.val : Int) ≥ x.int) := by
      rw [decide_eq_decide, ge_iff_le, le_iff_lt_or_eq, eq_comm]
    rw [Step.run, above_eq, level_eq, ← Bool.decide_or, either]
  sameHash := by
    rw [Step.run, hash_eq, Word.hash]
    rfl

/-! ## Exactness -/

/-- Arithmetic on the register is that of the integers.  A move gives the exact result, or the reason
why there is none or no word holds it, and in that case leaves the register alone.  After any run of
moves the register holds a word, namely what the moves that did not fail come to.  Comparisons and hash
are those of the integer in the register. -/
theorem arithmetic_is_exact (acc : Word) :
    (∀ m : Move, verdict? (m.step.run acc) = some (.ofExact (m.exact acc.val))) ∧
      (∀ (m : Move) (failure : Failure), m.step.run acc = .error failure → m.step.after acc = acc) ∧
        (∀ moves : List Move, (run acc (moves.map Move.step)).val < 2 ^ 256 ∧
          evaluate acc.val (successful acc moves) = some ((run acc (moves.map Move.step)).val : Int)) ∧
          (∀ x : Number, AgreesWith acc x) ∧ acc.hash = (Value.int acc.val).hash := by
  refine ⟨fun m => verdict_run acc m.calculation m.operand, ?_,
    fun moves => ⟨(run acc (moves.map Move.step)).lt, evaluate_successful acc moves⟩,
    agreesWith acc, rfl⟩
  intro m failure failed
  rw [Step.after, failed]

def Number.ofInt (z : Int) : Number :=
  ⟨.int z, z, rfl⟩

/-- From three: a power just below the width, its sum with itself, a quotient by zero, and a difference
that is small. -/
def attempts : List Move :=
  [⟨.power, .ofInt 161⟩, ⟨.sum, .ofInt (3 ^ 161)⟩, ⟨.quotient, .ofInt 0⟩,
    ⟨.differenceFrom, .ofInt (3 ^ 161 + 4)⟩]

def landed : List Move :=
  [⟨.power, .ofInt 161⟩, ⟨.differenceFrom, .ofInt (3 ^ 161 + 4)⟩]

theorem arithmetic_of_attempts :
    successful ⟨3, by decide⟩ attempts = landed ∧ evaluate 3 landed = some 4 ∧
      (Step.div (.int 0)).run ⟨3, by decide⟩ = .error (.fault (.divisionByZero 3)) ∧
        (Step.div (.int 0)).after ⟨3, by decide⟩ = ⟨3, by decide⟩ := by
  have kept : successful ⟨3, by decide⟩ attempts = landed := rfl
  obtain ⟨-, leaves, comesTo, -⟩ := arithmetic_is_exact ⟨3, by decide⟩
  have exact := (comesTo attempts).2
  rw [kept] at exact
  exact ⟨kept, exact, rfl, leaves ⟨.quotient, .ofInt 0⟩ _ rfl⟩

end PegPool.Register
