import PegPool.Proofs.Curve.Domain
import PegPool.Proofs.Curve.Reserve
import PegPool.Proofs.Curve.ReserveRoot

/-!
# Where a reserve is defined

For every invariant of 64 bits the other reserve exists exactly if the known one and the coefficient
are within range (`otherReserve_total`); everywhere else the calculation fails with a fault of
arithmetic.  Within range the iteration always ends by itself.

Its first value, the invariant, may lie on either side of the root, and the step from there may
overshoot by 126 bits (`RootStep.first`).  From then on every step halves the distance to the root or
settles (`Halved.step`), so at most 128 steps are taken of the 256 that are allowed.
-/

namespace PegPool.Curve

/-! ## The words of a step -/

variable {x d amp m c r y z : Int}

/-- The reserves and coefficients for which the other reserve is calculated. -/
structure Solvable (x amp : Int) : Prop where
  xPos : 1 ≤ x
  xFits : 2 * x < 2 ^ 64
  ampPos : 1 ≤ amp
  ampFits : 2 * amp < 2 ^ 64

structure EquationWords (x d amp : Int) (b c rd : Word) : Prop where
  isSlope : (b.val : Int) = reserveSlope x d amp
  isConstant : (c.val : Int) = reserveConstant x d amp
  isInvariant : (rd.val : Int) = d

theorem reserveConstant_nonneg (solvable : Solvable x amp) (dNonneg : 0 ≤ d) :
    0 ≤ reserveConstant x d amp := by
  have xPos := solvable.xPos
  have ampPos := solvable.ampPos
  have square : 0 ≤ (d * d).fdiv (2 * x) := Int.fdiv_nonneg (mul_self_nonneg d) (by omega)
  exact Int.fdiv_nonneg (mul_nonneg square dNonneg) (by omega)

theorem eight_mul_reserveConstant_le (solvable : Solvable x amp) (dNonneg : 0 ≤ d) :
    8 * reserveConstant x d amp ≤ d * d * d := by
  have xPos := solvable.xPos
  have ampPos := solvable.ampPos
  have nonneg := reserveConstant_nonneg solvable dNonneg
  have squareNonneg : 0 ≤ (d * d).fdiv (2 * x) := Int.fdiv_nonneg (mul_self_nonneg d) (by omega)
  obtain ⟨firstLe, -⟩ := Word.fdiv_bounds (n := d * d) (show 0 < 2 * x by omega)
  obtain ⟨secondLe, -⟩ :=
    Word.fdiv_bounds (n := (d * d).fdiv (2 * x) * d) (show 0 < 2 * (2 * amp) by omega)
  change reserveConstant x d amp * (2 * (2 * amp)) ≤ _ at secondLe
  have lever : reserveConstant x d amp * 4 ≤ reserveConstant x d amp * (2 * (2 * amp)) :=
    mul_le_mul_of_nonneg_left (by omega) nonneg
  have double : (d * d).fdiv (2 * x) * 2 ≤ (d * d).fdiv (2 * x) * (2 * x) :=
    mul_le_mul_of_nonneg_left (by omega) squareNonneg
  have := mul_le_mul_of_nonneg_right (double.trans firstLe) dNonneg
  linarith

theorem mul_self_le_of_lt (dNonneg : 0 ≤ d) (dFits : d < 2 ^ 64) :
    d * d ≤ 2 ^ 64 * d ∧ d * d * d ≤ 2 ^ 128 * d := by
  have square : d * d ≤ 2 ^ 64 * d := mul_le_mul_of_nonneg_right (by omega) dNonneg
  have cube := mul_le_mul_of_nonneg_right square dNonneg
  exact ⟨square, by linarith⟩

theorem exists_reserveStep {b c rd y : Word} (words : EquationWords x d amp b c rd)
    (solvable : Solvable x amp) (dNonneg : 0 ≤ d) (dFits : d < 2 ^ 64)
    (yLe : (y.val : Int) ≤ 2 ^ 127)
    (positive : 0 < 2 * (y.val : Int) + (reserveSlope x d amp - d)) :
    ∃ z, reserveStep b c rd y = .ok z ∧
      RootStep (reserveSlope x d amp - d) (reserveConstant x d amp) y.val z.val := by
  obtain ⟨isSlope, isConstant, isInvariant⟩ := words
  obtain ⟨-, cube⟩ := mul_self_le_of_lt dNonneg dFits
  have constantLe := eight_mul_reserveConstant_le solvable dNonneg
  obtain ⟨quotientLe, -⟩ :=
    Word.fdiv_bounds (n := d) (show 0 < 2 * amp by have := solvable.ampPos; omega)
  have slopeLe : reserveSlope x d amp ≤ 2 ^ 65 := by
    have quotientNonneg : 0 ≤ d.fdiv (2 * amp) :=
      Int.fdiv_nonneg dNonneg (by have := solvable.ampPos; omega)
    have : d.fdiv (2 * amp) * 1 ≤ d.fdiv (2 * amp) * (2 * amp) :=
      mul_le_mul_of_nonneg_left (by have := solvable.ampPos; omega) quotientNonneg
    have := solvable.xFits
    unfold reserveSlope
    omega
  obtain ⟨square, isSquare, squareLe⟩ := Word.exists_mul (Int.natCast_nonneg y.val)
    (Int.natCast_nonneg y.val) yLe yLe (by norm_num)
  obtain ⟨numerator, isNumerator, -⟩ := Word.exists_add (Int.natCast_nonneg square.val)
    (Int.natCast_nonneg c.val) squareLe (n := 2 ^ 192) (by omega) (by norm_num)
  obtain ⟨double, isDouble, doubleLe⟩ := Word.exists_mul (y := 2) (Int.natCast_nonneg y.val)
    (by norm_num) yLe le_rfl (by norm_num)
  obtain ⟨sloped, isSloped, slopedLe⟩ := Word.exists_add (Int.natCast_nonneg double.val)
    (Int.natCast_nonneg b.val) doubleLe (n := 2 ^ 65) (by omega) (by norm_num)
  obtain ⟨denominator, isDenominator⟩ :=
    Word.exists_val_eq (z := sloped.val - rd.val) (by omega) (by omega)
  have isGap : (denominator.val : Int) = 2 * y.val + (reserveSlope x d amp - d) := by omega
  have denominatorPos : 0 < (denominator.val : Int) := by omega
  obtain ⟨z, isZ, -⟩ := Word.exists_div (Int.natCast_nonneg numerator.val) denominatorPos le_rfl
    (by have := numerator.lt; omega)
  refine ⟨z, ?_, positive, ?_, ?_⟩
  · simp only [reserveStep, bind_eq_ok, Word.mul_eq_ok, Word.add_eq_ok, Word.sub_eq_ok,
      Word.div_eq_ok]
    exact ⟨square, isSquare, numerator, isNumerator, double, isDouble, sloped, isSloped,
      denominator, isDenominator, denominatorPos.ne', isZ⟩
  · obtain ⟨le, -⟩ := Word.fdiv_bounds (n := numerator.val) denominatorPos
    rw [← isZ, isNumerator, isSquare, isConstant, isGap] at le
    exact le
  · obtain ⟨-, lt⟩ := Word.fdiv_bounds (n := numerator.val) denominatorPos
    rw [← isZ, isNumerator, isSquare, isConstant, isGap] at lt
    exact lt

/-! ## The iteration -/

/-- What a value has after `n` steps, if the iteration goes on from it. -/
structure Halved (m c r : Int) (n : Nat) (y : Int) : Prop where
  nonneg : 0 ≤ y
  small : y ≤ 2 ^ 126
  after : 0 < quadratic m c (y + 1)
  proper : 1 ≤ y ∨ m ≠ 0 ∨ c ≠ 0
  near : ∃ k : Nat, n + k ≤ 127 ∧ y - r < 2 ^ k

theorem RootStep.close_or_proper (step : RootStep m c y z) (cNonneg : 0 ≤ c) (yNonneg : 0 ≤ y) :
    (z ≤ y + 1 ∧ y ≤ z + 1) ∨ 1 ≤ z ∨ m ≠ 0 ∨ c ≠ 0 := by
  have zNonneg := step.nonneg cNonneg
  by_contra stuck
  obtain ⟨rfl, rfl, rfl⟩ : z = 0 ∧ m = 0 ∧ c = 0 := by omega
  -- only one is followed by zero
  have far : 2 ≤ y := by omega
  have := mul_le_mul_of_nonneg_right far yNonneg
  linarith [step.lt]

/-- The first step overshoots the root by 126 bits at most. -/
theorem RootStep.first (step : RootStep m c d z) (root : IntegerRoot m c r) (cNonneg : 0 ≤ c)
    (constantLe : 8 * c ≤ d * d * d) (sloped : 1 ≤ d + m) (dNonneg : 0 ≤ d) (dFits : d < 2 ^ 64) :
    (z ≤ d + 1 ∧ d ≤ z + 1) ∨ Halved m c r 1 z := by
  obtain ⟨square, cube⟩ := mul_self_le_of_lt dNonneg dFits
  have zNonneg := step.nonneg cNonneg
  have small : z < 2 ^ 126 := by
    by_contra large
    have : 2 ^ 126 * (d + 1) ≤ z * (2 * d + m) := mul_le_mul (by omega) (by omega) (by omega) (by omega)
    linarith [step.le]
  refine (step.close_or_proper cNonneg dNonneg).imp_right fun proper => ?_
  exact ⟨zNonneg, small.le, step.after, proper, 126, le_rfl, by have := root.nonneg; omega⟩

theorem Halved.step {n : Nat} (halved : Halved m c r n y) (step : RootStep m c y z)
    (root : IntegerRoot m c r) (cNonneg : 0 ≤ c) :
    (z ≤ y + 1 ∧ y ≤ z + 1) ∨ Halved m c r (n + 1) z := by
  obtain ⟨yNonneg, small, after, -, k, steps, near⟩ := halved
  have zNonneg := step.nonneg cNonneg
  have reached : r < y + 1 := lt_of_quadratic cNonneg (by omega) root.before after
  have reachedNext : r < z + 1 := lt_of_quadratic cNonneg (by omega) root.before step.after
  by_cases above : r + 1 ≤ y
  · have half := step.two_mul_le cNonneg root above
    cases k with
    | zero => omega
    | succ k =>
      refine (step.close_or_proper cNonneg yNonneg).imp_right fun proper => ?_
      exact ⟨zNonneg, by omega, step.after, proper, k, by omega, by rw [pow_succ] at near; omega⟩
  · obtain rfl : y = r := by omega
    exact .inl ⟨step.le_succ root, by omega⟩

theorem slope_pos (solvable : Solvable x amp) (dNonneg : 0 ≤ d) : 1 ≤ reserveSlope x d amp := by
  have xPos := solvable.xPos
  have ampPos := solvable.ampPos
  have : 0 ≤ d.fdiv (2 * amp) := Int.fdiv_nonneg dNonneg (by omega)
  unfold reserveSlope
  omega

/-- A value that the iteration passes after `n` steps.  Only the first one, the invariant, may lie
below the root. -/
inductive Passes (m c r d : Int) : Nat → Int → Prop where
  | first : Passes m c r d 0 d
  | halved {n : Nat} {y : Int} (halved : Halved m c r n y) : Passes m c r d n y

section Iteration

variable {b c rd : Word} (words : EquationWords x d amp b c rd) (solvable : Solvable x amp)
  (dNonneg : 0 ≤ d) (dFits : d < 2 ^ 64)
include words solvable dNonneg dFits

theorem Passes.exists_step {n : Nat} {y : Word}
    (root : IntegerRoot (reserveSlope x d amp - d) (reserveConstant x d amp) r)
    (passes : Passes (reserveSlope x d amp - d) (reserveConstant x d amp) r d n y.val) :
    ∃ z, reserveStep b c rd y = .ok z ∧
      RootStep (reserveSlope x d amp - d) (reserveConstant x d amp) y.val z.val ∧
      (close z y = true ∨
        Passes (reserveSlope x d amp - d) (reserveConstant x d amp) r d (n + 1) z.val) := by
  have cNonneg := reserveConstant_nonneg solvable dNonneg
  have sloped := slope_pos solvable dNonneg
  generalize isValue : (y.val : Int) = value at passes
  cases passes with
  | first =>
    obtain ⟨z, stepped, step⟩ :=
      exists_reserveStep words solvable dNonneg dFits (y := y) (by omega) (by omega)
    rw [isValue] at step
    refine ⟨z, stepped, step, ?_⟩
    rcases step.first root cNonneg (eight_mul_reserveConstant_le solvable dNonneg) (by omega)
      dNonneg dFits with near | next
    · exact .inl (close_iff.mpr (by omega))
    · exact .inr (.halved next)
  | halved halved =>
    subst isValue
    obtain ⟨z, stepped, step⟩ := exists_reserveStep words solvable dNonneg dFits (y := y)
      (by have := halved.small; omega)
      (denominator_pos cNonneg halved.nonneg halved.after halved.proper)
    refine ⟨z, stepped, step, ?_⟩
    rcases halved.step step root cNonneg with near | next
    · exact .inl (close_iff.mpr (by omega))
    · exact .inr (.halved next)

theorem exists_settled_reserve :
    ∃ y : Word, settle (reserveStep b c rd) defaultCap rd = .ok ⟨y, true⟩ ∧
      0 < reserveResidual x d amp (y.val + 1) ∧ reserveResidual x d amp y.val ≤ 1 := by
  obtain ⟨r, root⟩ := exists_integerRoot (reserveSlope x d amp - d)
    (reserveConstant_nonneg solvable dNonneg)
  have total : ∀ n (y : Word),
      Passes (reserveSlope x d amp - d) (reserveConstant x d amp) r d n y.val →
      ∃ z, reserveStep b c rd y = .ok z ∧ (close z y = true ∨
        Passes (reserveSlope x d amp - d) (reserveConstant x d amp) r d (n + 1) z.val) := by
    intro n y passes
    obtain ⟨z, stepped, -, next⟩ := passes.exists_step words solvable dNonneg dFits root
    exact ⟨z, stepped, next⟩
  have start : Passes (reserveSlope x d amp - d) (reserveConstant x d amp) r d 0 rd.val := by
    rw [words.isInvariant]
    exact .first
  have impossible : ∀ y : Word, ¬ Passes (reserveSlope x d amp - d) (reserveConstant x d amp) r d
      (0 + defaultCap) y.val := by
    intro y passes
    cases passes with
    | halved halved =>
      obtain ⟨k, steps, -⟩ := halved.near
      unfold defaultCap at steps
      omega
  obtain ⟨n, z, y, passes, stepped, isClose, settled⟩ :=
    settle_converges total defaultCap start impossible
  obtain ⟨y', stepped', step, -⟩ := passes.exists_step words solvable dNonneg dFits root
  cases stepped.symm.trans stepped'
  rw [close_iff] at isClose
  exact ⟨y, settled, step.after, step.quadratic_le_one (by omega) (by omega)⟩

end Iteration

/-! ## The reserve -/

theorem Solvable.exists_words (solvable : Solvable x amp) (dNonneg : 0 ≤ d) (dFits : d < 2 ^ 64) :
    ∃ b c rd : Word, EquationWords x d amp b c rd ∧ ∀ (cap : Nat) (y : Word),
      settle (reserveStep b c rd) cap rd = .ok ⟨y, true⟩ →
      otherReserve cap x d amp = Traced.ok y.val := by
  obtain ⟨xPos, xFits, ampPos, ampFits⟩ := solvable
  obtain ⟨ann, isAnn⟩ := Word.exists_val_eq (z := 2 * amp) (by omega) (by omega)
  obtain ⟨rx, isX⟩ := Word.exists_val_eq (z := x) (by omega) (by omega)
  obtain ⟨twoX, isTwoX⟩ := Word.exists_val_eq (z := 2 * x) (by omega) (by omega)
  obtain ⟨rd, isD⟩ := Word.exists_val_eq (z := d) (by omega) (by omega)
  have rdLe : (rd.val : Int) ≤ 2 ^ 64 := by omega
  obtain ⟨square, isSquare, squareLe⟩ := Word.exists_mul (Int.natCast_nonneg rd.val)
    (Int.natCast_nonneg rd.val) rdLe rdLe (by norm_num)
  obtain ⟨q, isQ, qLe⟩ := Word.exists_div (y := twoX.val) (Int.natCast_nonneg square.val)
    (by omega) squareLe (by norm_num)
  obtain ⟨cross, isCross, crossLe⟩ := Word.exists_mul (Int.natCast_nonneg q.val)
    (Int.natCast_nonneg rd.val) qLe rdLe (by norm_num)
  obtain ⟨twoAnn, isTwoAnn⟩ := Word.exists_val_eq (z := ann.val * 2) (by omega) (by omega)
  obtain ⟨c, isC, -⟩ := Word.exists_div (y := twoAnn.val) (Int.natCast_nonneg cross.val)
    (by omega) crossLe (by norm_num)
  obtain ⟨quotient, isQuotient, quotientLe⟩ := Word.exists_div (y := ann.val)
    (Int.natCast_nonneg rd.val) (by omega) rdLe (by norm_num)
  obtain ⟨b, isB⟩ := Word.exists_val_eq (z := quotient.val + rx.val) (by omega) (by omega)
  refine ⟨b, c, rd, ⟨?_, ?_, isD⟩, fun cap y settled => ?_⟩
  · rw [isB, isQuotient, isD, isAnn, isX, reserveSlope]
  · rw [isC, isCross, isQ, isSquare, isTwoAnn, isTwoX, isAnn, isD, reserveConstant, mul_comm _ 2]
  · have levered : leverage amp = .ok ann := leverage_eq_ok.mpr ⟨isAnn, by omega⟩
    have readX : Word.read x = .ok rx := Word.ofInt_eq_ok.mpr isX
    have doubled : rx.mul 2 = .ok twoX := Word.mul_eq_ok.mpr (by omega)
    have narrow : twoX.narrowed = .ok twoX := Word.narrowed_eq_ok.mpr ⟨rfl, by omega⟩
    have readD : Word.read d = .ok rd := Word.ofInt_eq_ok.mpr isD
    have squared : rd.mul rd.val = .ok square := Word.mul_eq_ok.mpr isSquare
    have first : square.div twoX.val = .ok q := Word.div_eq_ok.mpr ⟨by omega, isQ⟩
    have crossed : q.mul rd.val = .ok cross := Word.mul_eq_ok.mpr isCross
    have levered' : ann.mul 2 = .ok twoAnn := Word.mul_eq_ok.mpr isTwoAnn
    have second : cross.div twoAnn.val = .ok c := Word.div_eq_ok.mpr ⟨by omega, isC⟩
    have divided : rd.div ann.val = .ok quotient := Word.div_eq_ok.mpr ⟨by omega, isQuotient⟩
    have added : quotient.add rx.val = .ok b := Word.add_eq_ok.mpr isB
    unfold otherReserve
    rw [levered, Traced.ok_liftM_bind, readX, Traced.ok_liftM_bind, doubled, Traced.ok_liftM_bind,
      narrow, Traced.ok_liftM_bind, readD, Traced.ok_liftM_bind, squared, Traced.ok_liftM_bind, first,
      Traced.ok_liftM_bind, crossed, Traced.ok_liftM_bind, levered', Traced.ok_liftM_bind, second,
      Traced.ok_liftM_bind, divided, Traced.ok_liftM_bind, added, Traced.ok_liftM_bind, settled,
      Traced.ok_liftM_bind, if_pos rfl]
    rfl

theorem Solvable.exists_reserve (solvable : Solvable x amp) (dNonneg : 0 ≤ d) (dFits : d < 2 ^ 64) :
    ∃ y : Nat, otherReserve defaultCap x d amp = Traced.ok y ∧
      0 < reserveResidual x d amp (y + 1) ∧ reserveResidual x d amp y ≤ 1 := by
  obtain ⟨b, c, rd, words, calculated⟩ := solvable.exists_words dNonneg dFits
  obtain ⟨y, settled, after, near⟩ := exists_settled_reserve words solvable dNonneg dFits
  exact ⟨y.val, calculated _ _ settled, after, near⟩

/-! ## Where there is no reserve -/

theorem reserveStep_fails (b c rd y : Word) : FailsInArithmetic (reserveStep b c rd y) :=
  (Word.mul_fails _ _).bind fun _ => (Word.add_fails _ _).bind fun _ =>
  (Word.mul_fails _ _).bind fun _ => (Word.add_fails _ _).bind fun _ =>
  (Word.sub_fails _ _).bind fun _ => Word.div_fails _ _

theorem otherReserve_fails (cap : Nat) (x d amp : Int) :
    FailsInArithmetic (otherReserve cap x d amp).outcome := by
  simp only [otherReserve, Traced.outcome_bind, Traced.outcome_liftM, Traced.outcome_ite,
    Traced.outcome_pure, Traced.outcome_log, ok_bind, ite_self, Word.read_int]
  exact leverage_fails.bind fun _ => (Word.ofInt_fails _).bind fun _ =>
    (Word.mul_fails _ _).bind fun _ => (Word.narrowed_fails _).bind fun _ =>
    (Word.ofInt_fails _).bind fun _ => (Word.mul_fails _ _).bind fun _ =>
    (Word.div_fails _ _).bind fun _ => (Word.mul_fails _ _).bind fun _ =>
    (Word.mul_fails _ _).bind fun _ => (Word.div_fails _ _).bind fun _ =>
    (Word.div_fails _ _).bind fun _ => (Word.add_fails _ _).bind fun _ =>
    (settle_fails (reserveStep_fails _ _ _) _ _).bind fun _ => .pure _

/-! ## Faults that are caught -/

open Text (isWritable)

theorem reserveStep_caught (b c rd y : Word) : Caught (reserveStep b c rd y) :=
  (y.mul_caught (.word y)).andThen fun square => (square.add_caught (.word c)).andThen fun n =>
  (y.mul_caught (.of_lt (by decide))).andThen fun twice => (twice.add_caught (.word b)).andThen fun s =>
  (s.sub_caught (.word rd)).andThen fun _ => n.div_caught

theorem otherReserve_caught (cap : Nat) (xWritable : isWritable x = true) (dWritable : isWritable d = true)
    (ampWritable : isWritable amp = true) :
    Caught (otherReserve cap x d amp).outcome fun y => y < 2 ^ 256 := by
  simp only [otherReserve, Traced.outcome_bind, Traced.outcome_liftM, Traced.outcome_ite,
    Traced.outcome_pure, Traced.outcome_log, ok_bind, ite_self, Word.read_int]
  exact (leverage_caught ampWritable).andThen fun ann => (Word.ofInt_caught xWritable).andThen fun rx =>
    (rx.mul_caught (.of_lt (by decide))).andThen fun twoX => twoX.narrowed_caught.andThen fun twoX =>
    (Word.ofInt_caught dWritable).andThen fun rd => (rd.mul_caught (.word rd)).andThen fun square =>
    square.div_caught.andThen fun c => (c.mul_caught (.word rd)).andThen fun cross =>
    (ann.mul_caught (.of_lt (by decide))).andThen fun _ => cross.div_caught.andThen fun c =>
    rd.div_caught.andThen fun q => (q.add_caught (.word rx)).andThen fun b =>
    (settle_caught (reserveStep_caught b c rd) _ _).andThen fun root => .pure root.value.lt

theorem solvable_of_otherReserve {cap y : Nat}
    (calculated : (otherReserve cap x d amp).outcome = .ok y) : Solvable x amp := by
  simp only [otherReserve, Traced.outcome_bind, Traced.outcome_liftM, bind_eq_ok, Word.read_int,
    Word.ofInt_eq_ok, Word.mul_eq_ok, Word.div_eq_ok, Word.narrowed_eq_ok,
    leverage_eq_ok] at calculated
  obtain ⟨ann, ⟨isAnn, annFits⟩, rx, isX, twoX, isTwoX, _, ⟨rfl, xFits⟩, _, -, _, -, _,
    ⟨xNonzero, -⟩, _, -, twoAnn, isTwoAnn, _, ⟨annNonzero, -⟩, -⟩ := calculated
  exact ⟨by omega, by omega, by omega, by omega⟩

/-- For every invariant of 64 bits the other reserve is calculated exactly if the known reserve and
the coefficient are within range, and then the iteration ends by itself, at the integer part of the
root of the reserve equation or at the number after it.  Otherwise arithmetic fails, and the fault is
caught if the known reserve and the coefficient can be written. -/
theorem otherReserve_total (x d amp : Int) (dNonneg : 0 ≤ d) (dFits : d ≤ 2 ^ 64 - 1) :
    (Solvable x amp ∧ ∃ y : Nat, otherReserve defaultCap x d amp = Traced.ok y ∧
      0 < reserveResidual x d amp (y + 1) ∧ (y = 0 ∨ reserveResidual x d amp (y - 1) ≤ 0)) ∨
    (¬ Solvable x amp ∧ ∃ fault : Fault,
      (otherReserve defaultCap x d amp).outcome = .error fault ∧ fault.isArithmetic = true ∧
      (isWritable x = true → isWritable amp = true → fault.isCaught = true)) := by
  by_cases solvable : Solvable x amp
  · obtain ⟨y, calculated, after, near⟩ := solvable.exists_reserve dNonneg (by omega)
    refine .inl ⟨solvable, y, calculated, after, ?_⟩
    obtain rfl | yPos := Nat.eq_zero_or_pos y
    · exact .inl rfl
    · exact .inr (quadratic_pred_nonpos (reserveConstant_nonneg solvable dNonneg) (by omega) near)
  · obtain ⟨fault, failed, arithmetic⟩ := (otherReserve_fails defaultCap x d amp).exists_fault
      fun y calculated => solvable (solvable_of_otherReserve calculated)
    refine .inr ⟨solvable, fault, failed, arithmetic, ?_⟩
    intro xWritable ampWritable
    have dWritable : isWritable d = true := (Text.Brief.of_lt (by omega)).isWritable
    exact (otherReserve_caught defaultCap xWritable dWritable ampWritable).faults fault failed

/-- For the largest invariant beside a reserve of one, the first step overshoots 64 bits. -/
theorem otherReserve_total_of_largest : (0 : Int) ≤ 2 ^ 64 - 1 ∧ ∃ y : Nat,
    otherReserve defaultCap (1 : Int) (2 ^ 64 - 1 : Int) (1 : Int) = Traced.ok y ∧
      0 < reserveResidual 1 (2 ^ 64 - 1) 1 (y + 1) ∧ 2 ^ 64 < y := by
  have solvable : Solvable 1 1 := by constructor <;> decide
  rcases otherReserve_total 1 (2 ^ 64 - 1) 1 (by decide) (by decide) with
    ⟨-, y, calculated, after, -⟩ | ⟨outside, -⟩
  · refine ⟨by decide, y, calculated, after, ?_⟩
    have slope : reserveSlope 1 (2 ^ 64 - 1) 1 - (2 ^ 64 - 1) ≤ 0 := by decide
    have constant : (2 ^ 64 + 1) * (2 ^ 64 + 1) ≤ reserveConstant 1 (2 ^ 64 - 1) 1 := by decide
    by_contra small
    have square : ((y : Int) + 1) * (y + 1) ≤ (2 ^ 64 + 1) * (2 ^ 64 + 1) :=
      mul_le_mul (by omega) (by omega) (by omega) (by omega)
    have := mul_nonpos_of_nonpos_of_nonneg slope (show 0 ≤ (y : Int) + 1 by omega)
    unfold reserveResidual at after
    omega
  · exact absurd solvable outside

/-- The fault of a reserve or a coefficient of 4301 digits cannot be written, and so it is not caught.
Neither is that of a reserve which is a truth value. -/
theorem long_reserve_is_not_caught :
    (∃ fault : Fault, (otherReserve defaultCap (10 ^ 4300 : Int) (5 : Int) (1 : Int)).outcome =
      .error fault ∧ fault.isCaught = false ∧ fault.message = Text.limitNotice) ∧
    (∃ fault : Fault, (otherReserve defaultCap (1 : Int) (5 : Int) (10 ^ 4300 : Int)).outcome =
      .error fault ∧ fault.isCaught = false ∧ fault.message = Text.limitNotice) ∧
    ∃ fault : Fault, (otherReserve defaultCap (.foreign "bool") (5 : Int) (1 : Int)).outcome =
      .error fault ∧ fault.isCaught = false :=
  ⟨⟨.overflow (10 ^ 4300), by decide +kernel, by decide +kernel, by decide +kernel⟩,
    ⟨.overflow (10 ^ 4300), by decide +kernel, by decide +kernel, by decide +kernel⟩,
    ⟨.notInteger "bool", by decide +kernel, by decide +kernel⟩⟩

end PegPool.Curve
