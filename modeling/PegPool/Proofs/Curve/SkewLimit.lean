import PegPool.Proofs.Curve.SmallPools
import PegPool.Proofs.Curve.Swings

/-!
# For which pools the iteration settles

The iteration for the invariant settles in all pools with at most 32 times as much of the first asset,
and in more skewed ones in proportion to the coefficient.  One unit more, 33 to 1 with the coefficient
one, and it swings between 18 and 20 until the cap ends it.
-/

namespace PegPool.Curve

variable {a b amp : Int}

/-! ## The runs -/

theorem newtonEnd_of_two : ∀ a < 33, 19 < a → (newtonEnd a 1 2 defaultCap (a + 1)).isSome = true := by
  decide +kernel

theorem newtonEnd_of_lt_twenty : ∀ b < 20, 1 ≤ b → ∀ more < 13 * b + 1,
    (newtonEnd (19 * b + more) b 1 defaultCap (19 * b + more + b)).isSome = true := by
  decide +kernel

/-! ## The limit of the skew -/

theorem settles_of_two_le (range : InRange a b amp) (two : 2 ≤ amp) (skew : a ≤ 16 * amp * b) :
    Settles a b amp := by
  obtain ⟨aPos, bPos, -⟩ := id range
  by_cases steep : 19 * b < a
  · by_cases roomy : 3 ≤ amp ∨ 2 ≤ b
    · exact settles_of_mild range (fun d approach => approach.mild_of_two_le bPos two steep skew)
        fun v _ approach => not_swings_of_two_le approach bPos two roomy steep skew
    · obtain ⟨rfl, rfl⟩ : amp = 2 ∧ b = 1 := by omega
      obtain ⟨m, rfl⟩ := Int.eq_ofNat_of_zero_le (show 0 ≤ a by omega)
      exact settles_of_newtonEnd range (newtonEnd_of_two m (by omega) (by omega))
  · exact (settlesWithinOne_of_le_nineteen_mul range (by omega)).settles

theorem settles_of_one (range : InRange a b 1) (skew : a ≤ 32 * b) : Settles a b 1 := by
  obtain ⟨aPos, bPos, -⟩ := id range
  by_cases steep : 19 * b < a
  · by_cases twenty : 20 ≤ b
    · exact settles_of_mild range (fun d approach => approach.mild_of_one twenty steep skew)
        fun v before approach => not_swings_of_one approach twenty steep skew before
    · obtain ⟨n, rfl⟩ := Int.eq_ofNat_of_zero_le (show 0 ≤ b by omega)
      obtain ⟨more, isMore⟩ := Int.eq_ofNat_of_zero_le (show 0 ≤ a - 19 * n by omega)
      obtain rfl : a = (19 * n + more : Nat) := by
        push_cast
        omega
      exact settles_of_newtonEnd range
        (newtonEnd_of_lt_twenty n (by omega) (by omega) more (by omega))
  · exact (settlesWithinOne_of_le_nineteen_mul range (by omega)).settles

/-- The iteration for 33 and 1 is at 20 when the cap ends it, and an event tells of it. -/
theorem events_at_thirty_three_times : (invariant defaultCap (33 : Int) (1 : Int) (1 : Int)).events =
    [.invariantUnsettled 33 1 1 256 20] := by
  decide +kernel

/-- The iteration of a pool settles if the first reserve is at most `16 amp` times the second one, and
in all pools up to some skew exactly if that skew is at most 32. -/
theorem settles_iff_le_thirty_two (skew : Nat) :
    (∀ a b amp : Int, InRange a b amp → amp ≤ 1000000 → a ≤ skew * b ∨ a ≤ 16 * amp * b →
      Settles a b amp) ↔ skew ≤ 32 := by
  constructor
  · intro settles
    by_contra more
    have range : InRange 33 1 1 := by constructor <;> decide
    obtain ⟨d, calculated⟩ := settles 33 1 1 range (by decide) (.inl (by omega))
    have events := events_at_thirty_three_times
    rw [calculated] at events
    cases events
  · intro atMost a b amp range _ skewed
    have bPos := range.bPos
    have steeper : (skew : Int) * b ≤ 32 * b := mul_le_mul_of_nonneg_right (by omega) (by omega)
    by_cases two : 2 ≤ amp
    · have lever : 32 * b ≤ 16 * amp * b := mul_le_mul_of_nonneg_right (by omega) (by omega)
      exact settles_of_two_le range two (by omega)
    · have ampPos := range.ampPos
      obtain rfl : amp = 1 := by omega
      exact settles_of_one range (by omega)

/-- In range though it is, the pool of 33 and 1 has an iteration that only the cap ends. -/
theorem not_settles_at_thirty_three_times : InRange 33 1 1 ∧
    (invariant defaultCap (33 : Int) (1 : Int) (1 : Int)).events =
      [.invariantUnsettled 33 1 1 256 20] ∧ ¬ Settles 33 1 1 := by
  refine ⟨by constructor <;> decide, events_at_thirty_three_times, ?_⟩
  rintro ⟨d, calculated⟩
  have events := events_at_thirty_three_times
  rw [calculated] at events
  cases events

end PegPool.Curve
