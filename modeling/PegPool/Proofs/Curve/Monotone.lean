import PegPool.Proofs.Curve.Overshoot

/-!
# Larger pools and the invariant

The exact invariant grows with either reserve.  The calculated one does so with the second reserve
(`invariant_le_of_grown_right`), and with the first one as long as that is at most four times the
second (`invariant_le_of_le_four_mul`).  Beyond that one unit more of the first asset can move the
exact invariant by so little that the iteration ends lower.

Between 4 and 19 to 1 this happens only where no whole number lies between the two exact invariants
(`Outgrows`), and from 20 to 1 on also where one does (`invariant_monotone_iff_le_nineteen`).

What is added in the ratio of the reserves always raises it (`invariant_lt_of_ratio`).
-/

namespace PegPool.Curve

variable {a b a' b' amp : Int}

/-- A pool in range that comes out of one of `a` and `b` by adding to its reserves. -/
structure Grown (a b a' b' amp : Int) : Prop where
  aPos : 1 ≤ a
  bPos : 1 ≤ b
  aLe : a ≤ a'
  bLe : b ≤ b'
  range : InRange a' b' amp

/-- Some whole number lies above the exact invariant of the first pool and not above that of the
second. -/
def Outgrows (a b a' b' amp : Int) : Prop :=
  ∃ t : Int, 0 ≤ t ∧ residual a b amp t < 0 ∧ 0 ≤ residual a' b' amp t

/-- Both pools have an invariant, and the second one has at least that of the first. -/
def InvariantLe (a b a' b' amp : Int) : Prop :=
  ∃ d d' : Nat, (invariant defaultCap a b amp).outcome = .ok d ∧
    (invariant defaultCap a' b' amp).outcome = .ok d' ∧ d ≤ d'

namespace Grown

theorem range_before (grown : Grown a b a' b' amp) : InRange a b amp := by
  obtain ⟨aPos, bPos, aLe, bLe, -, -, ampPos, sumFits, aFits, bFits, ampFits⟩ := grown
  constructor <;> omega

theorem residual_le (grown : Grown a b a' b' amp) {t : Int} (nonneg : 0 ≤ t) (atMost : t ≤ a + b) :
    residual a b amp t ≤ residual a' b' amp t := by
  obtain ⟨aPos, bPos, aLe, bLe, range⟩ := grown
  have right := residual_mono_right aPos bPos range.ampPos bLe nonneg atMost
  have left := residual_mono_right range.bPos aPos range.ampPos aLe nonneg (by omega)
  rw [residual_comm b' a, residual_comm b' a'] at left
  exact right.trans left

theorem invariantLe_of_residual (grown : Grown a b a' b' amp)
    (kept : ∀ d : Nat, (invariant defaultCap a b amp).outcome = .ok d → Approach a b amp d →
      d ≤ a + b → 0 ≤ residual a' b' amp d) : InvariantLe a b a' b' amp := by
  obtain ⟨aPos', bPos', ampPos, -⟩ := id grown.range
  obtain ⟨d, calculated, approach, leSum⟩ := grown.range_before.exists_invariant_le_sum defaultCap
  obtain ⟨d', calculated', approach'⟩ := exists_invariant grown.range defaultCap
  have le := approach'.le_of_residual aPos' bPos' ampPos (kept d calculated approach leSum)
  exact ⟨d, d', calculated, calculated', by omega⟩

end Grown

/-! ## More of the second asset -/

theorem invariant_le_of_grown_right (grown : Grown a b a' b' amp) (more : b < b') :
    InvariantLe a b a' b' amp := by
  apply grown.invariantLe_of_residual
  intro d calculated approach leSum
  obtain ⟨aPos, bPos, aLe, bLe, range⟩ := id grown
  have next := grown.range_before.residual_succ_nonneg calculated
  have rest : Grown a (b + 1) a' b' amp := ⟨aPos, by omega, aLe, by omega, range⟩
  exact next.trans (rest.residual_le (by omega) (by omega))

/-! ## More of the first asset -/

theorem residual_succ_left_sub (a b amp t : Int) : residual (a + 1) b amp t - residual a b amp t =
    4 * b * (2 * amp * (2 * a + b + 1 - t) + t) := by
  unfold residual
  ring

/-- With the coefficient one the invariant of a pool of at most four to one is small enough for a unit
of the first asset to make up for what the divisions lose. -/
theorem mul_le_of_residual_pos {t : Int} (aPos : 1 ≤ a) (twenty : 20 ≤ b) (skew : a ≤ 4 * b)
    (before : 0 < residual a b 1 t) :
    t * (2 * a + 4 * b + 5) + 4 * a + 5 ≤ 12 * a * b + 8 * b ^ 2 + 4 * b := by
  by_contra large
  have cubic : t ^ 3 < 4 * a * b * (2 * (a + b) - t) := by
    unfold residual at before
    linarith
  have product := mul_le_mul_of_nonneg_left twenty (show 0 ≤ a by omega)
  have square := mul_le_mul_of_nonneg_left twenty (show 0 ≤ b by omega)
  -- cleared of what 20 units make small, the two bounds on `t` are homogeneous in the reserves
  have low : b * (59 * a + 40 * b) ≤ 5 * (t * (2 * a + 4 * b + 5)) := by linarith
  have high : 20 * ((2 * a + 4 * b + 5) * (2 * (a + b) - t)) ≤
      80 * a ^ 2 + 14 * a * b + 7 * b ^ 2 := by linarith
  have width : 0 ≤ 2 * a + 4 * b + 5 := by omega
  have lower := pow_le_pow_left₀ (show 0 ≤ b * (59 * a + 40 * b) by positivity) low 3
  have upper : 320 * (t ^ 3 * (2 * a + 4 * b + 5) ^ 3) ≤
      4 * a * b * ((8 * a + 17 * b) ^ 2 * (80 * a ^ 2 + 14 * a * b + 7 * b ^ 2)) := by
    have first := mul_le_mul_of_nonneg_right cubic.le
      (show 0 ≤ (2 * a + 4 * b + 5) ^ 3 by positivity)
    have second := mul_le_mul_of_nonneg_left high
      (show 0 ≤ (4 * (2 * a + 4 * b + 5)) ^ 2 by positivity)
    have wider := pow_le_pow_left₀ (show 0 ≤ 4 * (2 * a + 4 * b + 5) by omega)
      (show 4 * (2 * a + 4 * b + 5) ≤ 8 * a + 17 * b by omega) 2
    have third := mul_le_mul_of_nonneg_right wider
      (show 0 ≤ 80 * a ^ 2 + 14 * a * b + 7 * b ^ 2 by positivity)
    have fourth := mul_le_mul_of_nonneg_left (second.trans third) (show 0 ≤ 4 * a * b by positivity)
    linarith
  -- in each degree of `a` the skew turns the excess into the next lower one
  have gap : 0 ≤ 4 * b - a := by omega
  have : 0 ≤ b * (a ^ 4 * (4 * b - a)) := by positivity
  have : 0 ≤ b * (a ^ 3 * b * (4 * b - a)) := by positivity
  have : 0 ≤ b * (a ^ 2 * b ^ 2 * (4 * b - a)) := by positivity
  have : 0 ≤ b * (a * b ^ 3 * (4 * b - a)) := by positivity
  have : 0 ≤ a * b ^ 5 := by positivity
  have : 0 < b ^ 6 := by positivity
  linarith

/-- The iteration on numbers ends at a total that a pool with one unit more of the first asset has not
passed. -/
def endsBelowNext (a b : Nat) : Bool :=
  match newtonEnd a b 1 defaultCap (a + b) with
  | some e => decide (4 * (a + 1) * b * e + e ^ 3 ≤ 4 * (a + 1) * b * (2 * (a + b + 1)))
  | none => false

theorem endsBelowNext_of_lt_twenty : ∀ b < 20, 1 ≤ b → ∀ a < 4 * b + 1, 1 ≤ a →
    endsBelowNext a b = true := by
  decide +kernel

theorem residual_nonneg_of_endsBelowNext {a b d : Nat} (range : InRange a b 1)
    (calculated : (invariant defaultCap (a : Int) (b : Int) (1 : Int)).outcome = .ok d)
    (checked : endsBelowNext a b = true) : 0 ≤ residual (a + 1) b 1 d := by
  unfold endsBelowNext at checked
  split at checked
  case h_1 e ended =>
    have calculated' := invariant_of_newtonEnd (show InRange a b (1 : Nat) from range) ended
    cases calculated.symm.trans (congrArg Traced.outcome calculated')
    have before := of_decide_eq_true checked
    zify at before
    unfold residual
    linarith
  case h_2 => cases checked

/-- The invariant of a pool of at most four to one is one that a unit more of the first asset makes the
residual reach. -/
theorem residual_succ_left_nonneg (range : InRange a b amp) (skew : a ≤ 4 * b) {d : Nat}
    (calculated : (invariant defaultCap a b amp).outcome = .ok d) (leSum : d ≤ a + b) :
    0 ≤ residual (a + 1) b amp d := by
  obtain ⟨aPos, bPos, ampPos, -⟩ := id range
  have grown := residual_succ_left_sub a b amp d
  have settled := settlesWithinOne_of_le_nineteen_mul range (by omega)
  have near := settled.settles.residual_ge range calculated
  by_cases two : 2 ≤ amp
  · have lever := mul_le_mul_of_nonneg_right (show 4 ≤ 2 * amp by omega)
      (show 0 ≤ 2 * a + b + 1 - d by omega)
    have pull := mul_le_mul_of_nonneg_left
      (show 4 * (2 * a + b + 1 - d) + d ≤ 2 * amp * (2 * a + b + 1 - d) + d by linarith)
      (show 0 ≤ 4 * b by omega)
    have room := mul_le_mul_of_nonneg_left leSum (show 0 ≤ 2 * a + 12 * b + 5 by omega)
    have skewed := mul_le_mul_of_nonneg_left skew (show 0 ≤ a by omega)
    have single := mul_le_mul_of_nonneg_left bPos (show 0 ≤ a by omega)
    linarith [sq_nonneg b]
  · obtain rfl : amp = 1 := by omega
    by_cases twenty : 20 ≤ b
    · obtain ⟨d', calculated', before, -⟩ := settled.withinOneUnit
      cases calculated.symm.trans calculated'
      have := mul_le_of_residual_pos aPos twenty skew before
      linarith
    · obtain ⟨m, rfl⟩ := Int.eq_ofNat_of_zero_le (show 0 ≤ a by omega)
      obtain ⟨n, rfl⟩ := Int.eq_ofNat_of_zero_le (show 0 ≤ b by omega)
      exact residual_nonneg_of_endsBelowNext range calculated
        (endsBelowNext_of_lt_twenty n (by omega) (by omega) m (by omega) (by omega))

theorem invariant_le_of_le_four_mul (grown : Grown a b a' b' amp) (skew : a ≤ 4 * b) :
    InvariantLe a b a' b' amp := by
  obtain ⟨aPos, bPos, aLe, bLe, range⟩ := id grown
  obtain rfl | more : a = a' ∨ a < a' := by omega
  · obtain rfl | more : b = b' ∨ b < b' := by omega
    · obtain ⟨d, calculated, -⟩ := exists_invariant range defaultCap
      exact ⟨d, d, calculated, calculated, le_rfl⟩
    · exact invariant_le_of_grown_right grown more
  · apply grown.invariantLe_of_residual
    intro d calculated approach leSum
    have next := residual_succ_left_nonneg grown.range_before skew calculated leSum
    have rest : Grown (a + 1) b a' b' amp := ⟨by omega, bPos, by omega, bLe, range⟩
    exact next.trans (rest.residual_le (by omega) (by omega))

/-! ## Both reserves in proportion -/

theorem residual_scale (a b amp t k : Int) :
    residual (k * a) (k * b) amp (k * t) = k ^ 3 * residual a b amp t := by
  unfold residual
  ring

/-- Up to 19 to 1 the next two totals are reached, by scaling or, where little is added to small
totals, by the mean of the reserves. -/
theorem residual_add_two_nonneg (aPos : 1 ≤ a) (bPos : 1 ≤ b) (ampPos : 1 ≤ amp) {x y t : Int}
    (xPos : 1 ≤ x) (yPos : 1 ≤ y) (inRatio : x * b = y * a) (nonneg : 0 ≤ t) (atMost : t < a + b)
    (before : 0 < residual a b amp t) : 0 ≤ residual (a + x) (b + y) amp (t + 2) := by
  by_cases enough : 2 * b ≤ t * y
  · have scaled : b ^ 3 * residual (a + x) (b + y) amp (t + 2) =
        residual ((b + y) * a) ((b + y) * b) amp (b * (t + 2)) := by
      rw [← residual_scale, show b * (a + x) = (b + y) * a by linarith, mul_comm b (b + y)]
    have reached := residual_anti (mul_pos (show 0 < b + y by omega) (show 0 < a by omega))
      (mul_pos (show 0 < b + y by omega) (show 0 < b by omega)) ampPos
      (mul_nonneg (show 0 ≤ b by omega) (show 0 ≤ t + 2 by omega))
      (show b * (t + 2) ≤ (b + y) * t by linarith)
    rw [residual_scale, ← scaled] at reached
    have : 0 < (b + y) ^ 3 * residual a b amp t := mul_pos (pow_pos (by omega) 3) before
    exact nonneg_of_mul_nonneg_right (by omega) (pow_pos (show 0 < b by omega) 3)
  · have small : t < 2 * b := by
      have := mul_le_mul_of_nonneg_left yPos nonneg
      omega
    have small' : t < 2 * a := by
      have product : t * x * b < 2 * a * b := by
        calc t * x * b = t * y * a := by rw [mul_assoc, inRatio, ← mul_assoc]
          _ < 2 * b * a := mul_lt_mul_of_pos_right (by omega) (by omega)
          _ = 2 * a * b := by ring
      have := lt_of_mul_lt_mul_right product (by omega)
      have := mul_le_mul_of_nonneg_left xPos nonneg
      omega
    apply residual_nonneg_of_sq_le (by omega) (by omega) ampPos (by omega) (by omega)
    have mean : t * t ≤ 2 * a * (2 * b) := mul_le_mul small'.le small.le nonneg (by omega)
    have := mul_le_mul_of_nonneg_left yPos (show 0 ≤ a by omega)
    have := mul_le_mul_of_nonneg_left xPos (show 0 ≤ b by omega)
    have := mul_le_mul xPos yPos (by omega) (by omega)
    linarith

/-- From 19 to 1 on a deposit in the ratio adds more than 19 units of the first asset, and those make up
for one total more. -/
theorem residual_succ_nonneg_of_steep (bPos : 1 ≤ b) (ampPos : 1 ≤ amp) (steep : 19 * b < a)
    {x t : Int} (many : 20 ≤ x) (product : a ≤ (b + 1) * x) (tPos : 1 ≤ t) (atMost : t ≤ a + b)
    (reached : 0 ≤ residual a (b + 1) amp t) : 0 ≤ residual (a + x) (b + 1) amp (t + 1) := by
  have difference : residual (a + x) (b + 1) amp (t + 1) - residual a (b + 1) amp t =
      4 * (b + 1) * (2 * amp * (x * (2 * a + x + b + 1 - t) - (a + x)) + x * t + (a + x)) -
        (3 * t ^ 2 + 3 * t + 1) := by
    unfold residual
    ring
  have lever : 0 ≤ 2 * amp * (x * (2 * a + x + b + 1 - t) - (a + x)) := by
    apply mul_nonneg (by omega)
    have := mul_le_mul many (show a + x ≤ 2 * a + x + b + 1 - t by omega) (by omega) (by omega)
    omega
  have lever' := mul_nonneg (show 0 ≤ 4 * (b + 1) by omega) lever
  have pull := mul_le_mul_of_nonneg_right product (show 0 ≤ t by omega)
  have square := mul_le_mul_of_nonneg_left (show 19 * t ≤ 20 * a by omega) (show 0 ≤ t by omega)
  have rest : 0 ≤ (b + 1) * (a + x) := mul_nonneg (by omega) (by omega)
  have room := mul_le_mul_of_nonneg_left (show 20 ≤ a by omega) (show 0 ≤ t by omega)
  linarith

/-- What is added in the ratio of the reserves raises the invariant, whatever the skew. -/
theorem invariant_lt_of_ratio {x y : Int} (grown : Grown a b (a + x) (b + y) amp) (xPos : 1 ≤ x)
    (yPos : 1 ≤ y) (inRatio : x * b = y * a) :
    ∃ d d' : Nat, (invariant defaultCap a b amp).outcome = .ok d ∧
      (invariant defaultCap (a + x) (b + y) amp).outcome = .ok d' ∧ d < d' := by
  obtain ⟨aPos, bPos, aLe, bLe, range⟩ := id grown
  have ampPos := range.ampPos
  have before := grown.range_before
  obtain ⟨d, calculated, approach, leSum⟩ := before.exists_invariant_le_sum defaultCap
  obtain ⟨d', calculated', approach'⟩ := exists_invariant range defaultCap
  refine ⟨d, d', calculated, calculated', ?_⟩
  suffices reached : 0 ≤ residual (a + x) (b + y) amp (d + 1) by
    have := approach'.le_of_residual (by omega) (by omega) ampPos reached
    omega
  have dPos := approach.pos
  by_cases steep : 19 * b < a
  · -- the unit of the second asset reaches `d` itself, the rest of the first one the next total
    have product : a * 1 ≤ b * x := by
      rw [mul_comm b, inRatio, mul_comm y]
      exact mul_le_mul_of_nonneg_left yPos (by omega)
    have many : 20 ≤ x := by
      by_contra few
      have := mul_le_mul_of_nonneg_left (show x ≤ 19 by omega) (show 0 ≤ b by omega)
      omega
    have next := residual_succ_nonneg_of_steep bPos ampPos steep many (by linarith) dPos leSum
      (before.residual_succ_nonneg calculated)
    exact next.trans (residual_mono_right (by omega) (by omega) ampPos (by omega) (by omega) (by omega))
  · obtain ⟨d'', calculated'', reached, -⟩ := withinOneUnit_of_le_nineteen_mul before (by omega)
    cases calculated.symm.trans calculated''
    have := residual_add_two_nonneg aPos bPos ampPos xPos yPos inRatio (by omega) (by omega) reached
    rwa [show (d : Int) - 1 + 2 = d + 1 by ring] at this

/-! ## The limit of the skew -/

/-- Within one unit of the exact invariant the calculated one is at most every whole number above it. -/
theorem invariant_le_of_outgrows (grown : Grown a b a' b' amp) (skew : a ≤ 19 * b)
    (outgrows : Outgrows a b a' b' amp) : InvariantLe a b a' b' amp := by
  obtain ⟨t, nonneg, passed, reached⟩ := outgrows
  obtain ⟨aPos', bPos', ampPos, -⟩ := id grown.range
  obtain ⟨d, calculated, before, -⟩ := withinOneUnit_of_le_nineteen_mul grown.range_before skew
  obtain ⟨d', calculated', approach'⟩ := exists_invariant grown.range defaultCap
  refine ⟨d, d', calculated, calculated', ?_⟩
  have := approach'.le_of_residual aPos' bPos' ampPos reached
  by_contra less
  have := residual_anti grown.aPos grown.bPos ampPos nonneg (show t ≤ d - 1 by omega)
  omega

theorem invariant_before_twenty_times :
    (invariant defaultCap (8123293 : Int) (409659 : Int) (1 : Int)).outcome = .ok 5378319 := rfl

theorem invariant_after_twenty_times :
    (invariant defaultCap (8123294 : Int) (409659 : Int) (1 : Int)).outcome = .ok 5378318 := rfl

/-- The invariant of a pool does not fall when its second reserve grows, or when its first reserve is at
most four times the second.  Where a whole number lies between the two exact invariants, it does not
fall in all pools up to some skew, exactly if that skew is at most 19. -/
theorem invariant_monotone_iff_le_nineteen (skew : Nat) :
    (∀ a b a' b' amp : Int, Grown a b a' b' amp → amp ≤ 1000000 → b < b' ∨ a ≤ 4 * b →
      InvariantLe a b a' b' amp) ∧
    ((∀ a b a' b' amp : Int, Grown a b a' b' amp → amp ≤ 1000000 → Outgrows a b a' b' amp →
      a ≤ skew * b → InvariantLe a b a' b' amp) ↔ skew ≤ 19) := by
  refine ⟨fun a b a' b' amp grown _ right => ?_, fun monotone => ?_, fun atMost => ?_⟩
  · exact right.elim (invariant_le_of_grown_right grown) (invariant_le_of_le_four_mul grown)
  · by_contra more
    have grown : Grown 8123293 409659 8123294 409659 1 := by
      refine ⟨by decide, by decide, by decide, by decide, ?_⟩
      constructor <;> decide
    have outgrows : Outgrows 8123293 409659 8123294 409659 1 := ⟨5378318, by decide⟩
    obtain ⟨d, d', calculated, calculated', le⟩ :=
      monotone _ _ _ _ 1 grown (by decide) outgrows (by omega)
    rw [invariant_before_twenty_times] at calculated
    rw [invariant_after_twenty_times] at calculated'
    cases calculated
    cases calculated'
    exact absurd le (by decide)
  · intro a b a' b' amp grown _ outgrows skewed
    have steeper : (skew : Int) * b ≤ 19 * b :=
      mul_le_mul_of_nonneg_right (by omega) (by linarith [grown.bPos])
    exact invariant_le_of_outgrows grown (by omega) outgrows

/-- One unit more of the first asset, and the invariant of 43 and 1 falls from 23 to 22. -/
theorem invariant_falls_at_forty_three_times : Grown 43 1 44 1 1 ∧
    (invariant defaultCap (43 : Int) (1 : Int) (1 : Int)).outcome = .ok 23 ∧
    (invariant defaultCap (44 : Int) (1 : Int) (1 : Int)).outcome = .ok 22 := by
  refine ⟨⟨by decide, by decide, by decide, by decide, ?_⟩, rfl, rfl⟩
  constructor <;> decide

end PegPool.Curve
