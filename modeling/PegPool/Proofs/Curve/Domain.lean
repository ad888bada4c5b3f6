import PegPool.Proofs.Curve.Accuracy

/-!
# Where the invariant is defined

The calculated invariant exists exactly for the empty pool and for pools within range
(`invariant_total`); everywhere else the calculation fails with a fault of arithmetic.

It is never more than the sum of the reserves.  A value of the iteration whose square is at least
`4ab` is followed by one of at most the sum (`NewtonStep.le_sum`).  By the rounding a value can fall
short of that square, but only by a step from the sum to the number before it, and there the
iteration ends (`sum_le_of_sq_lt`).
-/

namespace PegPool.Curve

variable {a b amp : Int}

/-! ## At most the sum of the reserves -/

/-- From the geometric mean of the doubled reserves on, the divisions leave at least `d`. -/
theorem le_cubeQuotient (aPos : 1 ≤ a) (bPos : 1 ≤ b) {d : Int} (dPos : 1 ≤ d)
    (square : 4 * a * b ≤ d ^ 2) : d ≤ cubeQuotient a b d := by
  obtain ⟨q, -, firstLt, -, secondLt⟩ := cubeQuotient_spec aPos bPos d
  have first : 2 * b < q + 1 :=
    lt_of_mul_lt_mul_right (a := 2 * a) (by linarith) (by omega)
  have : 2 * b * d ≤ q * d := mul_le_mul_of_nonneg_right (by omega) (by omega)
  have second : d < cubeQuotient a b d + 1 :=
    lt_of_mul_lt_mul_right (a := 2 * b) (by linarith) (by omega)
  omega

theorem NewtonStep.le_sum {d p e : Int} (newton : NewtonStep a b amp d p e) (ampPos : 1 ≤ amp)
    (dPos : 1 ≤ d) (atMost : d ≤ a + b) (dLe : d ≤ p) : e ≤ a + b := by
  have positive := newton.denominator_pos ampPos dPos
  by_contra large
  have exceeds : (a + b + 1) * (d * (2 * amp - 1) + 3 * p) ≤ e * (d * (2 * amp - 1) + 3 * p) :=
    mul_le_mul_of_nonneg_right (by omega) positive.le
  have pull : p * d ≤ p * (a + b) := mul_le_mul_of_nonneg_left atMost newton.pNonneg
  have lever : d * (a + b) ≤ p * (a + b) := mul_le_mul_of_nonneg_right dLe (by omega)
  linarith [newton.le]

theorem sq_add_three_le {e n : Int} (less : e ^ 2 < 4 * n) : e ^ 2 + 3 ≤ 4 * n := by
  obtain ⟨half, rfl | rfl⟩ := Int.even_or_odd' e
  · have : (2 * half) ^ 2 = 4 * half ^ 2 := by ring
    omega
  · have : (2 * half + 1) ^ 2 = 4 * (half ^ 2 + half) + 1 := by ring
    omega

/-- Of the totals that are not below the integer part of the exact invariant, only the sum of the
reserves and the number before it have a square of less than `4ab`. -/
theorem sum_le_of_sq_lt (aPos : 1 ≤ a) (bPos : 1 ≤ b) (ampPos : 1 ≤ amp) {e : Int} (ePos : 1 ≤ e)
    (square : e ^ 2 < 4 * a * b) (after : residual a b amp (e + 1) < 0) : a + b ≤ e + 1 := by
  by_contra less
  have short : e ^ 2 + 3 ≤ 4 * a * b := by
    rw [mul_assoc] at square ⊢
    exact sq_add_three_le square
  have lever : 2 * 1 ≤ 2 * amp * (a + b - (e + 1)) :=
    mul_le_mul (by omega) (by omega) (by omega) (by omega)
  have pull : (e ^ 2 + 3) * (e + 3) ≤ 4 * a * b * (2 * amp * (a + b - (e + 1)) + (e + 1)) :=
    mul_le_mul short (by omega) (by omega) (by positivity)
  unfold residual at after
  linarith

/-- What a value has from which the iteration goes on. -/
structure Ongoing (a b amp d : Int) : Prop where
  approach : Approach a b amp d
  leSum : d ≤ a + b
  square : 4 * a * b ≤ d ^ 2

theorem Ongoing.sum (aPos : 1 ≤ a) (bPos : 1 ≤ b) (ampPos : 1 ≤ amp) : Ongoing a b amp (a + b) :=
  ⟨.sum aPos bPos ampPos, le_rfl, by linarith [sq_nonneg (a - b)]⟩

/-- A step stays at most at the sum of the reserves, and the iteration goes on from there or ends. -/
theorem Ongoing.step {d e : Int} (ongoing : Ongoing a b amp d)
    (newton : NewtonStep a b amp d (cubeQuotient a b d) e) (aPos : 1 ≤ a) (bPos : 1 ≤ b)
    (ampPos : 1 ≤ amp) : e ≤ a + b ∧ ((e ≤ d + 1 ∧ d ≤ e + 1) ∨ Ongoing a b amp e) := by
  obtain ⟨approach, leSum, square⟩ := ongoing
  have next := newton.approach aPos bPos ampPos approach
  have dLe := le_cubeQuotient aPos bPos approach.pos square
  have leSum' := newton.le_sum ampPos approach.pos leSum dLe
  refine ⟨leSum', ?_⟩
  by_cases short : e ^ 2 < 4 * a * b
  · have near := sum_le_of_sq_lt aPos bPos ampPos next.pos short next.after
    have less : e < d := lt_of_pow_lt_pow_left₀ 2 (by linarith [approach.pos]) (by omega)
    exact .inl ⟨by omega, by omega⟩
  · exact .inr ⟨next, leSum', by omega⟩

theorem InRange.exists_invariant_le_sum (range : InRange a b amp) (cap : Nat) :
    ∃ d : Nat, (invariant cap a b amp).outcome = .ok d ∧ Approach a b amp d ∧ d ≤ a + b := by
  obtain ⟨aPos, bPos, ampPos, -⟩ := id range
  obtain ⟨sum, twoA, twoB, words⟩ := range.exists_reserveWords
  have total : ∀ x : Word, Ongoing a b amp x.val → ∃ y, invariantStep amp sum twoA twoB x = .ok y ∧
      (Approach a b amp y.val ∧ y.val ≤ a + b) ∧ (close y x = true ∨ Ongoing a b amp y.val) := by
    intro x ongoing
    obtain ⟨y, stepped, newton, next⟩ := exists_newtonStep range words ongoing.approach
    obtain ⟨leSum, goesOn⟩ := ongoing.step newton aPos bPos ampPos
    refine ⟨y, stepped, ⟨next, leSum⟩, goesOn.imp_left fun near => ?_⟩
    exact close_iff.mpr ⟨by omega, by omega⟩
  have start : Ongoing a b amp sum.val := by
    rw [words.isSum]
    exact .sum aPos bPos ampPos
  obtain ⟨r, settled, approach, leSum⟩ := settle_keeps_until_close total
    (fun _ ongoing => ⟨ongoing.approach, ongoing.leSum⟩) cap start
  exact ⟨r.value.val, words.invariant_of_settle range settled, approach, leSum⟩

/-! ## Failures -/

theorem leverage_fails : FailsInArithmetic (leverage amp) :=
  (Word.ofInt_fails _).bind fun _ => (Word.mul_fails _ _).bind fun _ => Word.narrowed_fails _

theorem invariantStep_fails (sum twoA twoB d : Word) :
    FailsInArithmetic (invariantStep amp sum twoA twoB d) :=
  (Word.mul_fails _ _).bind fun _ => (Word.div_fails _ _).bind fun _ =>
  (Word.mul_fails _ _).bind fun _ => (Word.div_fails _ _).bind fun _ =>
  leverage_fails.bind fun _ => (Word.mul_fails _ _).bind fun _ =>
  (Word.mul_fails _ _).bind fun _ => (Word.add_fails _ _).bind fun _ =>
  (Word.mul_fails _ _).bind fun _ => (Word.sub_fails _ _).bind fun _ =>
  (Word.mul_fails _ _).bind fun _ => (Word.mul_fails _ _).bind fun _ =>
  (Word.add_fails _ _).bind fun _ => Word.div_fails _ _

theorem invariant_fails (cap : Nat) (a b amp : Int) :
    FailsInArithmetic (invariant cap a b amp).outcome := by
  simp only [invariant, Traced.outcome_bind, Traced.outcome_liftM, Traced.outcome_ite,
    Traced.outcome_pure, Traced.outcome_log, ok_bind, ite_self, Word.read_int]
  refine (Word.ofInt_fails _).bind fun _ => (Word.ofInt_fails _).bind fun _ =>
    (Word.add_fails _ _).bind fun _ => (Word.narrowed_fails _).bind fun sum => ?_
  split
  · exact .pure _
  · exact (Word.mul_fails _ _).bind fun _ => (Word.narrowed_fails _).bind fun _ =>
      (Word.mul_fails _ _).bind fun _ => (Word.narrowed_fails _).bind fun _ =>
      (settle_fails (invariantStep_fails _ _ _) _ _).bind fun _ => .pure _

/-! ## Faults that are caught -/

open Text (Brief isWritable)

theorem leverage_caught (writable : isWritable amp = true) : Caught (leverage amp) :=
  (Word.ofInt_caught writable).andThen fun w =>
  (w.mul_caught (.of_lt (by decide))).andThen fun w => w.narrowed_caught

theorem invariantStep_caught (writable : isWritable amp = true) (sum twoA twoB d : Word) :
    Caught (invariantStep amp sum twoA twoB d) :=
  (d.mul_caught (.word d)).andThen fun p => p.div_caught.andThen fun p =>
  (p.mul_caught (.word d)).andThen fun p => p.div_caught.andThen fun p =>
  (leverage_caught writable).andThen fun ann => (sum.mul_caught (.word ann)).andThen fun pull =>
  (p.mul_caught (.of_lt (by decide))).andThen fun twice => (twice.add_caught (.word pull)).andThen fun s =>
  (d.mul_caught (.word s)).andThen fun n => (ann.sub_caught (.of_lt (by decide))).andThen fun less =>
  (d.mul_caught (.word less)).andThen fun m => (p.mul_caught (.of_lt (by decide))).andThen fun thrice =>
  (m.add_caught (.word thrice)).andThen fun _ => n.div_caught

/-- The numbers in the faults of the invariant are its arguments or made of words. -/
theorem invariant_caught (cap : Nat) (aWritable : isWritable a = true) (bWritable : isWritable b = true)
    (ampWritable : isWritable amp = true) :
    Caught (invariant cap a b amp).outcome fun d => d < 2 ^ 256 := by
  simp only [invariant, Traced.outcome_bind, Traced.outcome_liftM, Traced.outcome_ite,
    Traced.outcome_pure, Traced.outcome_log, ok_bind, ite_self, Word.read_int]
  refine (Word.ofInt_caught aWritable).andThen fun ra => (Word.ofInt_caught bWritable).andThen fun rb =>
    (ra.add_caught (.word rb)).andThen fun sum => sum.narrowed_caught.andThen fun sum => ?_
  split
  · exact .pure (by decide)
  · exact (ra.mul_caught (.of_lt (by decide))).andThen fun twoA => twoA.narrowed_caught.andThen fun twoA =>
      (rb.mul_caught (.of_lt (by decide))).andThen fun twoB => twoB.narrowed_caught.andThen fun twoB =>
      (settle_caught (invariantStep_caught ampWritable _ _ _) _ _).andThen fun root =>
      .pure root.value.lt

/-- The invariant of an empty pool is zero.  Within range it exists whatever the cap on the
iteration, is at most the sum of the reserves, exactly so for equal ones, and not below the integer
part of the exact invariant.  Everywhere else arithmetic fails. -/
theorem invariant_total (a b amp : Int) (cap : Nat) (capPos : 1 ≤ cap) :
    (a = 0 ∧ b = 0 ∧ (invariant cap a b amp).outcome = .ok 0) ∨
    (InRange a b amp ∧ ∃ d : Nat, (invariant cap a b amp).outcome = .ok d ∧ d ≤ a + b ∧
      residual a b amp (d + 1) < 0 ∧ (a = b → d = 2 * a)) ∨
    (¬ (a = 0 ∧ b = 0) ∧ ¬ InRange a b amp ∧ ∃ fault : Fault,
      (invariant cap a b amp).outcome = .error fault ∧ fault.isArithmetic = true ∧
      (isWritable a = true → isWritable b = true → isWritable amp = true →
        fault.isCaught = true)) := by
  by_cases empty : a = 0 ∧ b = 0
  · obtain ⟨rfl, rfl⟩ := empty
    exact .inl ⟨rfl, rfl, invariant_zero cap⟩
  by_cases range : InRange a b amp
  · obtain ⟨d, calculated, approach, atMost⟩ := range.exists_invariant_le_sum cap
    refine .inr (.inl ⟨range, d, calculated, atMost, approach.after, ?_⟩)
    rintro rfl
    obtain ⟨aPos, -, ampPos, -⟩ := range
    have := approach.two_mul_le aPos aPos ampPos (by omega) le_rfl le_rfl
    omega
  · have noValue : ∀ d, (invariant cap a b amp).outcome ≠ .ok d := by
      intro d calculated
      rcases invariant_spec capPos calculated with ⟨isA, isB, -⟩ | ⟨inRange, -⟩
      · exact empty ⟨isA, isB⟩
      · exact range inRange
    obtain ⟨fault, failed, arithmetic⟩ := (invariant_fails cap a b amp).exists_fault noValue
    refine .inr (.inr ⟨empty, range, fault, failed, arithmetic, ?_⟩)
    intro aWritable bWritable ampWritable
    exact (invariant_caught cap aWritable bWritable ampWritable).faults fault failed

/-- Cut off after one step, the invariant of 1000 and 10 is still bounded from both sides. -/
theorem invariant_total_after_one_step : 1 ≤ 1 ∧ ∃ d : Nat,
    (invariant 1 (1000 : Int) (10 : Int) (7 : Int)).outcome = .ok d ∧ d ≤ (1000 : Int) + 10 ∧
      residual 1000 10 7 (d + 1) < 0 := by
  have range : InRange 1000 10 7 := by constructor <;> decide
  rcases invariant_total 1000 10 7 1 le_rfl with ⟨isZero, -⟩ | inRange | ⟨-, outside, -⟩
  · cases isZero
  · obtain ⟨-, d, calculated, atMost, after, -⟩ := inRange
    exact ⟨le_rfl, d, calculated, atMost, after⟩
  · exact absurd range outside

/-- The fault of a reserve of 4301 digits cannot be written, and so it is not caught.  Neither is that of
a reserve which is a truth value. -/
theorem long_invariant_is_not_caught :
    (∃ fault : Fault, (invariant defaultCap (10 ^ 4300 : Int) (1 : Int) (1 : Int)).outcome = .error fault ∧
      fault.isCaught = false ∧ fault.message = Text.limitNotice) ∧
    ∃ fault : Fault, (invariant defaultCap (.foreign "bool") (1 : Int) (1 : Int)).outcome = .error fault ∧
      fault.isCaught = false :=
  ⟨⟨.overflow (10 ^ 4300), by decide +kernel, by decide +kernel, by decide +kernel⟩,
    ⟨.notInteger "bool", by decide +kernel, by decide +kernel⟩⟩

end PegPool.Curve
