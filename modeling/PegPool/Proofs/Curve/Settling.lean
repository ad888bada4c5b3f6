import PegPool.Proofs.Curve.Invariant

/-!
# When the iteration settles

The divisions of a Newton step lose something of `d³`, and what they lose moves the next value up.
At a value where the loss is small next to the slope of the curve the step is `Mild`: from above the
exact invariant it comes down by about a third of the distance, less one, and from its integer part
it does not go up by more than two.

Mild steps reach the integer part `v` of the exact invariant or one of the two numbers above it.  From
there only two moves do not settle, the one from `v` to `v + 2` and the one back.  So the iteration
settles if it does not swing between these two numbers (`exists_settled`).
-/

namespace PegPool.Curve

variable {a b amp : Int}

/-- The iteration for the invariant ends by itself, so that no event tells of a cap. -/
def Settles (a b amp : Int) : Prop :=
  ∃ d : Nat, invariant defaultCap a b amp = Traced.ok d

/-- What the iteration ends with is the invariant, and an event tells if only the cap ended it. -/
theorem ReserveWords.invariant_eq {sum twoA twoB : Word} (words : ReserveWords a b sum twoA twoB)
    (range : InRange a b amp) {cap : Nat} {r : Settled}
    (settled : settle (invariantStep amp sum twoA twoB) cap sum = .ok r) :
    invariant cap a b amp = ⟨if r.converged then [] else
      [.invariantUnsettled a b amp cap r.value.val], .ok r.value.val⟩ := by
  obtain ⟨aPos, bPos, -, sumFits, aFits, bFits, -⟩ := range
  obtain ⟨isSum, isTwoA, isTwoB⟩ := words
  obtain ⟨ra, isA⟩ := Word.exists_val_eq (z := a) (by omega) (by omega)
  obtain ⟨rb, isB⟩ := Word.exists_val_eq (z := b) (by omega) (by omega)
  have readA : Word.read a = .ok ra := Word.ofInt_eq_ok.mpr isA
  have readB : Word.read b = .ok rb := Word.ofInt_eq_ok.mpr isB
  have added : ra.add rb = .ok sum := Word.add_eq_ok.mpr (by omega)
  have sumNarrow : sum.narrowed = .ok sum := Word.narrowed_eq_ok.mpr ⟨rfl, by omega⟩
  have doubledA : ra.mul 2 = .ok twoA := Word.mul_eq_ok.mpr (by omega)
  have aNarrow : twoA.narrowed = .ok twoA := Word.narrowed_eq_ok.mpr ⟨rfl, by omega⟩
  have doubledB : rb.mul 2 = .ok twoB := Word.mul_eq_ok.mpr (by omega)
  have bNarrow : twoB.narrowed = .ok twoB := Word.narrowed_eq_ok.mpr ⟨rfl, by omega⟩
  have some : sum.val ≠ 0 := by omega
  simp only [invariant, readA, readB, added, sumNarrow, doubledA, aNarrow, doubledB, bNarrow, settled,
    Traced.ok_liftM_bind, some, if_false]
  split <;> rfl

theorem ReserveWords.invariant_of_converged {sum twoA twoB y : Word}
    (words : ReserveWords a b sum twoA twoB) (range : InRange a b amp) {cap : Nat}
    (settled : settle (invariantStep amp sum twoA twoB) cap sum = .ok ⟨y, true⟩) :
    invariant cap a b amp = Traced.ok y.val :=
  words.invariant_eq range settled

/-! ## The size of a step -/

/-- Above a total that the residual has passed it falls at least with a third of the slope. -/
theorem distance_mul_slope_le (aPos : 1 ≤ a) (bPos : 1 ≤ b) (ampPos : 1 ≤ amp) {u d : Int}
    (dPos : 1 ≤ d) (uNonneg : 0 ≤ u) (le : u ≤ d) (passed : residual a b amp u ≤ 0) :
    (d - u) * (4 * a * b * (2 * amp - 1) * d + 3 * d ^ 3) ≤ -(3 * d * residual a b amp d) := by
  have secant : 4 * a * b * (2 * amp - 1) * d + 3 * d ^ 3 ≤
      3 * d * (4 * a * b * (2 * amp - 1) + (u ^ 2 + u * d + d ^ 2)) := by
    have : 0 ≤ 4 * a * b * (2 * amp - 1) * d := by
      have : 0 ≤ 2 * amp - 1 := by omega
      positivity
    have : 0 ≤ d * (u ^ 2 + u * d) := by positivity
    linarith
  have difference := residual_sub_residual a b amp u d
  have scaled := mul_le_mul_of_nonneg_left secant (show 0 ≤ d - u by omega)
  have above := mul_le_mul_of_nonneg_left passed (show 0 ≤ 3 * d by omega)
  have : 3 * d * residual a b amp u - 3 * d * residual a b amp d =
      (d - u) * (3 * d * (4 * a * b * (2 * amp - 1) + (u ^ 2 + u * d + d ^ 2))) := by
    rw [← mul_sub, difference]
    ring
  linarith

namespace NewtonStep

variable {d p e : Int}

/-- The step in terms of the residual: it adds `d (residual + loss)` over the slope less the loss. -/
theorem mul_slope_le (newton : NewtonStep a b amp d p e) (aPos : 1 ≤ a) (bPos : 1 ≤ b) :
    (e - d) * (4 * a * b * (2 * amp - 1) * d + 3 * d ^ 3 - 3 * (d ^ 3 - 4 * a * b * p)) ≤
      d * (residual a b amp d + (d ^ 3 - 4 * a * b * p)) := by
  have scaled := mul_le_mul_of_nonneg_left newton.le (show 0 ≤ 4 * a * b by positivity)
  unfold residual
  linarith

/-- A step from above a total that the residual has passed closes about a third of the distance. -/
theorem fall_lt (newton : NewtonStep a b amp d p e) (aPos : 1 ≤ a) (bPos : 1 ≤ b) (ampPos : 1 ≤ amp)
    (dPos : 1 ≤ d) {u k : Int} (uNonneg : 0 ≤ u) (le : u ≤ d) (passed : residual a b amp u ≤ 0)
    (kPos : 0 < k) (enough : (3 * d + 3 * k) * (d ^ 3 - 4 * a * b * p) <
      k * (4 * a * b * (2 * amp - 1) * d + 3 * d ^ 3)) : 3 * (e - d) + (d - u) < k := by
  have lossNonneg := newton.lossNonneg
  have step := newton.mul_slope_le aPos bPos
  have steep := distance_mul_slope_le aPos bPos ampPos dPos uNonneg le passed
  generalize isLoss : d ^ 3 - 4 * a * b * p = loss at *
  generalize isSlope : 4 * a * b * (2 * amp - 1) * d + 3 * d ^ 3 = slope at *
  have lossDistance : 0 ≤ d * loss := mul_nonneg (by omega) (by omega)
  have slopePos : 0 < slope - 3 * loss := by
    have : 0 < k * (slope - 3 * loss) := by linarith
    exact pos_of_mul_pos_right this kPos.le
  -- nearer to `u` the loss counts for less, so it may be left out
  have lossGap : 0 ≤ (d - u) * loss := mul_nonneg (by omega) (by omega)
  have uLoss : 0 ≤ u * loss := mul_nonneg uNonneg (by omega)
  have bounded : (3 * (e - d) + (d - u)) * (slope - 3 * loss) < k * (slope - 3 * loss) := by linarith
  exact lt_of_mul_lt_mul_right bounded slopePos.le

/-- How far a step goes up from the integer part of the exact invariant. -/
theorem climb_le (newton : NewtonStep a b amp d p e) (aPos : 1 ≤ a) (bPos : 1 ≤ b) (dPos : 1 ≤ d)
    (after : residual a b amp (d + 1) < 0) {k : Int} (kPos : 0 < k)
    (enough : (d + 3 * k + 3) * (d ^ 3 - 4 * a * b * p) + 3 * d ^ 2 + d ≤
      k * (4 * a * b * (2 * amp - 1) * d + 3 * d ^ 3)) : e ≤ d + k := by
  have lossNonneg := newton.lossNonneg
  have step := newton.mul_slope_le aPos bPos
  have difference := residual_sub_residual a b amp d (d + 1)
  by_contra far
  have small : d * residual a b amp d <
      4 * a * b * (2 * amp - 1) * d + 3 * d ^ 3 + (3 * d ^ 2 + d) := by
    have := mul_lt_mul_of_pos_left (show residual a b amp d <
      4 * a * b * (2 * amp - 1) + (d ^ 2 + d * (d + 1) + (d + 1) ^ 2) by linarith) (show 0 < d by omega)
    linarith
  generalize isLoss : d ^ 3 - 4 * a * b * p = loss at *
  generalize isSlope : 4 * a * b * (2 * amp - 1) * d + 3 * d ^ 3 = slope at *
  have lossDistance : 0 ≤ d * loss := mul_nonneg (by omega) (by omega)
  have slopeNonneg : 0 ≤ slope - 3 * loss := by
    have : 0 ≤ k * (slope - 3 * loss) := by nlinarith
    exact nonneg_of_mul_nonneg_right this kPos
  have further : (k + 1) * (slope - 3 * loss) ≤ (e - d) * (slope - 3 * loss) :=
    mul_le_mul_of_nonneg_right (by omega) slopeNonneg
  linarith

end NewtonStep

/-! ## Mild values -/

/-- What the divisions may lose at `d` is little enough for a step from above to come down, and for
one from the integer part of the exact invariant not to go up by more than two. -/
structure Mild (a b amp d : Int) : Prop where
  fall : (3 * d + 12) * (4 * a * b - 2 * a + (2 * a - 1) * d) <
    4 * (4 * a * b * (2 * amp - 1) * d + 3 * d ^ 3)
  climb : (d + 9) * (4 * a * b - 2 * a + (2 * a - 1) * d) + 3 * d ^ 2 + d ≤
    2 * (4 * a * b * (2 * amp - 1) * d + 3 * d ^ 3)

namespace NewtonStep

variable {d p e : Int}

theorem fall_of_mild (newton : NewtonStep a b amp d p e) (mild : Mild a b amp d) (aPos : 1 ≤ a)
    (bPos : 1 ≤ b) (ampPos : 1 ≤ amp) (dPos : 1 ≤ d) {u : Int} (uNonneg : 0 ≤ u) (le : u ≤ d)
    (passed : residual a b amp u ≤ 0) : 3 * (e - d) + (d - u) < 4 := by
  apply newton.fall_lt aPos bPos ampPos dPos uNonneg le passed (by norm_num)
  have := mul_le_mul_of_nonneg_left newton.lossLe (show 0 ≤ 3 * d + 12 by omega)
  linarith [mild.fall]

theorem climb_of_mild (newton : NewtonStep a b amp d p e) (mild : Mild a b amp d) (aPos : 1 ≤ a)
    (bPos : 1 ≤ b) (dPos : 1 ≤ d) (after : residual a b amp (d + 1) < 0) : e ≤ d + 2 := by
  apply newton.climb_le aPos bPos dPos after (by norm_num)
  have := mul_le_mul_of_nonneg_left newton.lossLe (show 0 ≤ d + 9 by omega)
  linarith [mild.climb]

end NewtonStep

/-- The iteration goes from `v` to the number after the next one, and from there back. -/
structure Swings (a b amp v : Int) : Prop where
  up : NewtonStep a b amp v (cubeQuotient a b v) (v + 2)
  down : NewtonStep a b amp (v + 2) (cubeQuotient a b (v + 2)) v

/-! ## The iteration -/

theorem Approach.le_of_residual {d : Int} (approach : Approach a b amp d) (aPos : 1 ≤ a)
    (bPos : 1 ≤ b) (ampPos : 1 ≤ amp) {t : Int} (before : 0 ≤ residual a b amp t) : t ≤ d :=
  Curve.le_of_residual aPos bPos ampPos (by have := approach.pos; omega) before approach.after

theorem exists_integerPart (aPos : 1 ≤ a) (bPos : 1 ≤ b) (ampPos : 1 ≤ amp) :
    ∃ v : Int, 0 ≤ v ∧ 0 ≤ residual a b amp v ∧ residual a b amp (v + 1) < 0 := by
  have passed : ∃ n : Nat, residual a b amp (n + 1) < 0 := by
    refine ⟨(a + b).toNat, ?_⟩
    rw [Int.toNat_of_nonneg (by omega)]
    exact (Approach.sum aPos bPos ampPos).after
  refine ⟨Nat.find passed, by omega, ?_, Nat.find_spec passed⟩
  cases isLeast : Nat.find passed with
  | zero =>
    have : 0 ≤ 4 * a * b * (2 * amp * (a + b)) := by positivity
    simpa [residual] using this
  | succ n =>
    have before := Nat.find_min passed (m := n) (by omega)
    push_cast
    omega

/-- How far a value still is from where the iteration settles, if `late` is the one value near the
integer part `v` from which it may not settle at once. -/
def rank (v late d : Int) : Int :=
  if v + 3 ≤ d then d - v - 1 else if d = late then 1 else 0

/-- What a step that does not settle leaves of a rank. -/
def shrink (r : Int) : Int :=
  min (r - 1) ((2 * r + 3) / 3)

theorem shrink_mono {m n : Int} (le : m ≤ n) : shrink m ≤ shrink n := by
  unfold shrink
  omega

theorem shrink_defaultCap : shrink^[defaultCap] (2 ^ 64) ≤ -1 := by decide +kernel

theorem rank_nonneg (v late d : Int) : 0 ≤ rank v late d := by
  unfold rank
  split
  · omega
  · split <;> omega

/-- A step that is no swing settles or leaves a smaller rank. -/
theorem rank_le_shrink {v late d e : Int} (dLe : v ≤ d) (eLe : v ≤ e)
    (fallen : v + 1 ≤ d → 3 * (e - d) + (d - (v + 1)) < 4) (climbed : d = v → e ≤ v + 2)
    (noSwing : (late = v ∧ (d = v + 2 → e ≠ v)) ∨ (late = v + 2 ∧ (d = v → e ≠ v + 2))) :
    (e ≤ d + 1 ∧ d ≤ e + 1) ∨ rank v late e ≤ shrink (rank v late d) := by
  unfold rank shrink
  split <;> split <;> omega

/-- If all values that the iteration may pass are mild and it does not swing about the exact
invariant, then it settles, by a step of at most one. -/
theorem exists_settled (range : InRange a b amp) (mild : ∀ d, Approach a b amp d → Mild a b amp d)
    (steady : ∀ v, 0 ≤ residual a b amp v → Approach a b amp v → ¬ Swings a b amp v) :
    ∃ z y : Nat, Approach a b amp z ∧ NewtonStep a b amp z (cubeQuotient a b z) y ∧
      Approach a b amp y ∧ y ≤ z + 1 ∧ z ≤ y + 1 ∧ invariant defaultCap a b amp = Traced.ok y := by
  obtain ⟨aPos, bPos, ampPos, sumFits, -⟩ := id range
  obtain ⟨sum, twoA, twoB, words⟩ := range.exists_reserveWords
  obtain ⟨v, vNonneg, before, passed⟩ := exists_integerPart aPos bPos ampPos
  have least : ∀ d, Approach a b amp d → v ≤ d := fun d approach =>
    approach.le_of_residual aPos bPos ampPos before
  -- of the two moves that do not settle, the iteration takes at most one
  obtain ⟨late, noSwing⟩ : ∃ late, ∀ d e, Approach a b amp d →
      NewtonStep a b amp d (cubeQuotient a b d) e →
      (late = v ∧ (d = v + 2 → e ≠ v)) ∨ (late = v + 2 ∧ (d = v → e ≠ v + 2)) := by
    by_cases up : Approach a b amp v ∧ NewtonStep a b amp v (cubeQuotient a b v) (v + 2)
    · refine ⟨v, fun d e _ newton => .inl ⟨rfl, ?_⟩⟩
      rintro rfl rfl
      exact steady e before up.1 ⟨up.2, newton⟩
    · refine ⟨v + 2, fun d e approach newton => .inr ⟨rfl, ?_⟩⟩
      rintro rfl rfl
      exact up ⟨approach, newton⟩
  have total : ∀ n (z : Word), (Approach a b amp z.val ∧ rank v late z.val ≤ shrink^[n] (2 ^ 64)) →
      ∃ y, invariantStep amp sum twoA twoB z = .ok y ∧ (close y z = true ∨
        Approach a b amp y.val ∧ rank v late y.val ≤ shrink^[n + 1] (2 ^ 64)) := by
    rintro n z ⟨approach, near⟩
    obtain ⟨y, stepped, newton, next⟩ := exists_newtonStep range words approach
    have fallen : v + 1 ≤ z.val → 3 * ((y.val : Int) - z.val) + (z.val - (v + 1)) < 4 := fun above =>
      newton.fall_of_mild (mild _ approach) aPos bPos ampPos approach.pos (by omega) above passed.le
    have climbed : (z.val : Int) = v → y.val ≤ v + 2 := by
      rintro rfl
      exact newton.climb_of_mild (mild _ approach) aPos bPos approach.pos approach.after
    refine ⟨y, stepped, ?_⟩
    rw [close_iff]
    rcases rank_le_shrink (least _ approach) (least _ next) fallen climbed
      (noSwing _ _ approach newton) with near' | smaller
    · exact .inl (by omega)
    · rw [Function.iterate_succ_apply']
      exact .inr ⟨next, smaller.trans (shrink_mono near)⟩
  have start : Approach a b amp sum.val ∧ rank v late sum.val ≤ shrink^[0] (2 ^ 64) := by
    refine ⟨words.approach_sum range, ?_⟩
    rw [words.isSum, Function.iterate_zero_apply]
    unfold rank
    split
    · omega
    · split <;> omega
  have impossible : ∀ y : Word,
      ¬ (Approach a b amp y.val ∧ rank v late y.val ≤ shrink^[0 + defaultCap] (2 ^ 64)) := by
    rintro y ⟨-, near⟩
    have used := shrink_defaultCap
    have := rank_nonneg v late y.val
    rw [zero_add] at near
    omega
  obtain ⟨m, z, y, ⟨approach, -⟩, stepped, isClose, settled⟩ :=
    settle_converges total defaultCap start impossible
  obtain ⟨y', stepped', newton, next⟩ := exists_newtonStep range words approach
  cases stepped.symm.trans stepped'
  rw [close_iff] at isClose
  exact ⟨z.val, y.val, approach, newton, next, isClose.1, isClose.2,
    words.invariant_of_converged range settled⟩

theorem settles_of_mild (range : InRange a b amp) (mild : ∀ d, Approach a b amp d → Mild a b amp d)
    (steady : ∀ v, 0 ≤ residual a b amp v → Approach a b amp v → ¬ Swings a b amp v) :
    Settles a b amp := by
  obtain ⟨-, y, -, -, -, -, -, calculated⟩ := exists_settled range mild steady
  exact ⟨y, calculated⟩

end PegPool.Curve
