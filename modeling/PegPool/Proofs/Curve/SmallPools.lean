import PegPool.Proofs.Curve.Accuracy

/-!
# Pools too small for estimates

In a small pool the estimates of a Newton step leave too much room, and the iteration itself has to
be followed.  `newtonEnd` is the iteration on plain numbers.  It ends where the one on words does
(`settle_of_newtonEnd`), and there are few enough small pools to run it for all of them.
-/

namespace PegPool.Curve

def newtonNext (a b amp d : Nat) : Nat :=
  let p := d * d / (2 * a) * d / (2 * b)
  d * (2 * p + (a + b) * (2 * amp)) / (d * (2 * amp - 1) + 3 * p)

def newtonEnd (a b amp : Nat) : (cap : Nat) → Nat → Option Nat
  | 0, _ => none
  | cap + 1, d =>
    let e := newtonNext a b amp d
    if e ≤ d + 1 ∧ d ≤ e + 1 then some e else newtonEnd a b amp cap e

variable {a b amp d e : Nat}

theorem cubeQuotient_natCast (a b d : Nat) :
    cubeQuotient a b d = (d * d / (2 * a) * d / (2 * b) : Nat) := by
  rw [cubeQuotient, Int.ofNat_fdiv, Nat.cast_mul, Int.ofNat_fdiv]
  push_cast
  rfl

/-- A step of the iteration on words is the one on numbers. -/
theorem NewtonStep.eq_newtonNext (newton : NewtonStep a b amp d (cubeQuotient a b d) e)
    (ampPos : 1 ≤ amp) : newtonNext a b amp d = e := by
  have le := newton.le
  have lt := newton.lt
  rw [cubeQuotient_natCast] at le lt
  apply Nat.div_eq_of_lt_le
  · zify [show 1 ≤ 2 * amp by omega]
    exact_mod_cast le
  · zify [show 1 ≤ 2 * amp by omega]
    exact_mod_cast lt

theorem settle_of_newtonEnd (range : InRange a b amp) {sum twoA twoB : Word}
    (words : ReserveWords a b sum twoA twoB) {cap : Nat} {x : Word} (approach : Approach a b amp x.val)
    (ended : newtonEnd a b amp cap x.val = some e) :
    ∃ y, settle (invariantStep (amp : Int) sum twoA twoB) cap x = .ok ⟨y, true⟩ ∧ y.val = e := by
  have ampPos := range.ampPos
  induction cap generalizing x with
  | zero => cases ended
  | succ cap inductionHypothesis =>
    obtain ⟨y, stepped, newton, next⟩ := exists_newtonStep range words approach
    simp only [newtonEnd, newton.eq_newtonNext (by omega)] at ended
    simp only [settle, stepped]
    by_cases isClose : close y x = true
    · rw [if_pos (close_iff.mp isClose)] at ended
      cases ended
      exact ⟨y, by rw [if_pos isClose], rfl⟩
    · rw [if_neg (fun numbers => isClose (close_iff.mpr numbers))] at ended
      obtain ⟨r, settled, isEnd⟩ := inductionHypothesis next ended
      exact ⟨r, by rw [if_neg isClose]; exact settled, isEnd⟩

theorem invariant_of_newtonEnd (range : InRange a b amp)
    (ended : newtonEnd a b amp defaultCap (a + b) = some e) :
    invariant defaultCap (a : Int) (b : Int) (amp : Int) = Traced.ok e := by
  obtain ⟨sum, twoA, twoB, words⟩ := range.exists_reserveWords
  have isNat : sum.val = a + b := by exact_mod_cast words.isSum
  rw [← isNat] at ended
  obtain ⟨y, settled, rfl⟩ := settle_of_newtonEnd range words (words.approach_sum range) ended
  exact words.invariant_of_converged range settled

theorem settles_of_newtonEnd (range : InRange a b amp)
    (ended : (newtonEnd a b amp defaultCap (a + b)).isSome = true) : Settles a b amp := by
  obtain ⟨e, isEnd⟩ := Option.isSome_iff_exists.mp ended
  exact ⟨e, invariant_of_newtonEnd range isEnd⟩

/-- The iteration on numbers ends, and the residual has not passed the total before its end. -/
def endsWithinOne (a b amp : Nat) : Bool :=
  match newtonEnd a b amp defaultCap (a + b) with
  | some (e + 1) => decide (4 * a * b * (2 * amp * e) + e ^ 3 < 4 * a * b * (2 * amp * (a + b) + e))
  | _ => false

theorem settlesWithinOne_of_endsWithinOne (range : InRange a b amp)
    (checked : endsWithinOne a b amp = true) : SettlesWithinOne a b amp := by
  unfold endsWithinOne at checked
  split at checked
  case h_1 e ended =>
    have calculated := invariant_of_newtonEnd range ended
    obtain ⟨d, calculated', approach⟩ := exists_invariant range defaultCap
    rw [calculated] at calculated'
    cases calculated'
    refine ⟨e + 1, calculated, ?_, approach.after⟩
    have before := of_decide_eq_true checked
    zify at before
    unfold residual
    push_cast
    linarith
  case h_2 => cases checked

/-! ## The runs -/

theorem endsWithinOne_of_two_le :
    ∀ amp < 5, 2 ≤ amp → ∀ b < 3, ∀ a < 19 * b + 1, 1 ≤ a → endsWithinOne a b amp = true := by
  decide +kernel

theorem endsWithinOne_of_le_twelve :
    ∀ b < 13, ∀ a < 19 * b + 1, 1 ≤ a → endsWithinOne a b 1 = true := by
  decide +kernel

/-- With the coefficient one, close to the limit of the skew. -/
theorem endsWithinOne_near_limit :
    ∀ b < 108, 13 ≤ b → ∀ lack < 41, 19 * lack + 8 * b < 864 →
      endsWithinOne (19 * b - lack) b 1 = true := by
  decide +kernel

/-! ## The limit of the skew -/

/-- The iteration of a pool with at most 19 times as much of the first asset settles within one unit
of the exact invariant. -/
theorem settlesWithinOne_of_le_nineteen_mul {a b amp : Int} (range : InRange a b amp)
    (skew : a ≤ 19 * b) : SettlesWithinOne a b amp := by
  obtain ⟨aPos, bPos, ampPos, -⟩ := id range
  obtain ⟨m, rfl⟩ := Int.eq_ofNat_of_zero_le (show 0 ≤ a by omega)
  obtain ⟨n, rfl⟩ := Int.eq_ofNat_of_zero_le (show 0 ≤ b by omega)
  obtain ⟨k, rfl⟩ := Int.eq_ofNat_of_zero_le (show 0 ≤ amp by omega)
  by_cases five : 5 ≤ k
  · exact settlesWithinOne_of_tame range fun d approach =>
      approach.tame_of_five_le aPos bPos (by omega) skew
  · by_cases two : 2 ≤ k
    · by_cases three : 3 ≤ n
      · exact settlesWithinOne_of_tame range fun d approach =>
          approach.tame_of_two_le aPos (by omega) (by omega) skew
      · exact settlesWithinOne_of_endsWithinOne range
          (endsWithinOne_of_two_le k (by omega) two n (by omega) m (by omega) (by omega))
    · obtain rfl : k = 1 := by omega
      by_cases thirteen : 13 ≤ n
      · by_cases room : 19 * m + 864 ≤ 369 * n
        · exact settlesWithinOne_of_tame range fun d approach =>
            approach.tame_of_margin aPos (by omega) skew (by omega)
        · apply settlesWithinOne_of_endsWithinOne range
          have checked := endsWithinOne_near_limit n (by omega) thirteen (19 * n - m) (by omega)
            (by omega)
          rwa [show 19 * n - (19 * n - m) = m by omega] at checked
      · exact settlesWithinOne_of_endsWithinOne range
          (endsWithinOne_of_le_twelve n (by omega) m (by omega) (by omega))

/-- Within one unit of the exact invariant lies the calculated one of every pool that has at most 19
times as much of the first asset. -/
theorem withinOneUnit_of_le_nineteen_mul {a b amp : Int} (range : InRange a b amp)
    (skew : a ≤ 19 * b) : WithinOneUnit a b amp :=
  (settlesWithinOne_of_le_nineteen_mul range skew).withinOneUnit

theorem invariant_at_twenty_times :
    (invariant defaultCap (191776 : Int) (9600 : Int) (1 : Int)).outcome = .ok 126683 := rfl

/-- Every pool in range has an invariant, and it is never more than one unit below the exact one.  In
all pools up to some skew it is not more than one unit above either, exactly if that skew is at most
19. -/
theorem invariant_accurate_iff_le_nineteen (skew : Nat) :
    (∀ a b amp : Int, InRange a b amp → amp ≤ 1000000 →
      ∃ d : Nat, (invariant defaultCap a b amp).outcome = .ok d ∧ residual a b amp (d + 1) < 0 ∧
        (a ≤ skew * b → 0 < residual a b amp (d - 1))) ↔ skew ≤ 19 := by
  constructor
  · intro accurate
    by_contra more
    have range : InRange 191776 9600 1 := by constructor <;> decide
    obtain ⟨d, calculated, -, before⟩ := accurate 191776 9600 1 range (by decide)
    rw [invariant_at_twenty_times] at calculated
    cases calculated
    exact absurd (before (by omega)) (by decide)
  · intro atMost a b amp range _
    obtain ⟨d, calculated, approach⟩ := exists_invariant range defaultCap
    refine ⟨d, calculated, approach.after, fun skewed => ?_⟩
    have steeper : (skew : Int) * b ≤ 19 * b :=
      mul_le_mul_of_nonneg_right (by omega) (by linarith [range.bPos])
    obtain ⟨d', calculated', before, -⟩ := withinOneUnit_of_le_nineteen_mul range (by omega)
    cases calculated.symm.trans calculated'
    exact before

theorem invariant_at_fifty_three_times :
    (invariant defaultCap (53 : Int) (1 : Int) (1 : Int)).outcome = .ok 27 := rfl

/-- The invariant of 53 and 1 is calculated as 27, though the exact one is below 26. -/
theorem not_withinOneUnit_at_fifty_three_times : InRange 53 1 1 ∧
    (invariant defaultCap (53 : Int) (1 : Int) (1 : Int)).outcome = .ok 27 ∧
      residual 53 1 1 26 < 0 ∧ ¬ WithinOneUnit 53 1 1 := by
  refine ⟨by constructor <;> decide, invariant_at_fifty_three_times, by decide, ?_⟩
  rintro ⟨d, calculated, before, -⟩
  rw [invariant_at_fifty_three_times] at calculated
  cases calculated
  exact absurd before (by decide)

end PegPool.Curve
