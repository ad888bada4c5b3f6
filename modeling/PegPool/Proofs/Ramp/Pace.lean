import Mathlib.Algebra.Order.Ring.Int
import Mathlib.Data.List.Induction
import PegPool.Proofs.Ramp.Policy

/-!
# The pace of a coefficient

The lock of a policy looks at the start of the ramp in force, which a freeze overwrites.  On a clock
that does not run backward a freeze only moves it forward, so the ramps of a run start at least the
shortest duration apart (`started_pairwise`).  Until the next one starts, a freeze keeps a coefficient
between the ends of the last one (`confined_of_last`), so that it stays within the factor by which the
policy lets one ramp move it.
-/

namespace PegPool.Ramp

variable {policy : RampPolicy} {r next bound : Ramp} {change : Change} {changes : List Change}

/-- The clock does not run backward. -/
def Ordered (changes : List Change) : Prop :=
  (changes.map Change.time).Pairwise (· ≤ ·)

theorem ordered_cons : Ordered (change :: changes) ↔
    (∀ later ∈ changes, change.time ≤ later.time) ∧ Ordered changes := by
  simp [Ordered]

/-! ## How often ramps start -/

namespace Change.Effect

variable {started : Option Ramp} (effect : change.Effect policy r started next)

include effect

theorem eq_of_started (start : Ramp) (isStart : started = some start) : start = next := by
  cases effect with
  | starts starts =>
    cases isStart
    rfl
  | freezes now => cases isStart
  | refused refused => cases isStart

theorem unlocked (start : Ramp) (isStart : started = some start) :
    r.start + policy.minDuration ≤ start.start := by
  cases effect with
  | starts starts =>
    cases isStart
    rw [starts.isStart]
    exact starts.unlocked
  | freezes now => cases isStart
  | refused refused => cases isStart

/-- After the start of the ramp in force a change leaves it alone or moves it to its own time. -/
theorem start_mem (begun : r.start ≤ change.time) : next.start = r.start ∨ next.start = change.time := by
  cases effect with
  | starts starts => exact .inr starts.isStart
  | freezes now => exact .inr rfl
  | refused refused => exact .inl rfl

end Change.Effect

/-- A run after the start of the ramp in force starts none within the shortest duration from it. -/
theorem add_le_start_of_mem (ordered : Ordered changes)
    (begun : ∀ change ∈ changes, r.start ≤ change.time) :
    ∀ later ∈ started r (changes.map (Change.step policy)),
      r.start + policy.minDuration ≤ later.start := by
  induction changes generalizing r with
  | nil =>
    intro later member
    cases member
  | cons change changes inductionHypothesis =>
    obtain ⟨first, ordered⟩ := ordered_cons.mp ordered
    have effect := change.effect policy r
    have moved := effect.start_mem (begun change (by simp))
    have := begun change (by simp)
    intro later member
    simp only [List.map_cons, started, List.mem_append, Option.mem_toList] at member
    cases member with
    | inl isStart => exact effect.unlocked later isStart
    | inr member =>
      have := inductionHypothesis ordered (by
        intro other isOther
        have := first other isOther
        have := begun other (by simp [isOther])
        omega) later member
      omega

theorem started_pairwise (ordered : Ordered changes) :
    (started r (changes.map (Change.step policy))).Pairwise
      fun one later => one.start + policy.minDuration ≤ later.start := by
  induction changes generalizing r with
  | nil => exact .nil
  | cons change changes inductionHypothesis =>
    obtain ⟨first, ordered⟩ := ordered_cons.mp ordered
    have effect := change.effect policy r
    simp only [List.map_cons, started]
    rw [List.pairwise_append]
    refine ⟨?_, inductionHypothesis ordered, ?_⟩
    · cases (change.step policy).started? r with
      | none => exact .nil
      | some start => exact List.pairwise_singleton _ _
    · intro one isStart
      rw [Option.mem_toList] at isStart
      obtain rfl := effect.eq_of_started one isStart
      apply add_le_start_of_mem ordered
      intro later member
      have := first later member
      rw [isStart] at effect
      cases effect with
      | starts starts => rwa [starts.isStart]

/-! ## How far the coefficient moves -/

/-- The ends of the line lie between those of `bound`. -/
structure Confined (bound r : Ramp) : Prop where
  initial : r.initial ∈ Set.uIcc bound.initial bound.target
  target : r.target ∈ Set.uIcc bound.initial bound.target

theorem Confined.refl (r : Ramp) : Confined r r :=
  ⟨Set.left_mem_uIcc, Set.right_mem_uIcc⟩

theorem Confined.factor (confined : Confined bound r) (now : Int) :
    r.factor now ∈ Set.uIcc bound.initial bound.target :=
  Set.uIcc_subset_uIcc confined.initial confined.target (factor_mem_uIcc r now)

theorem Change.Effect.confined (effect : change.Effect policy r none next)
    (confined : Confined bound r) : Confined bound next := by
  cases effect with
  | freezes now => exact ⟨confined.factor now, confined.factor now⟩
  | refused refused => exact confined

theorem confined_of_last (changes : List Change) :
    ∀ last ∈ (started r (changes.map (Change.step policy))).getLast?,
      Confined last (run r (changes.map (Change.step policy))) := by
  induction changes using List.reverseRecOn with
  | nil =>
    intro last isLast
    cases isLast
  | append_singleton changes change inductionHypothesis =>
    intro last isLast
    simp only [List.map_append, List.map_cons, List.map_nil, started_append, run_append] at isLast ⊢
    have effect := change.effect policy (run r (changes.map (Change.step policy)))
    simp only [started, List.append_nil] at isLast
    cases started : (change.step policy).started? (run r (changes.map (Change.step policy))) with
    | none =>
      rw [started] at effect isLast
      rw [Option.toList_none, List.append_nil] at isLast
      exact effect.confined (inductionHypothesis last isLast)
    | some start =>
      rw [started] at isLast
      rw [Option.toList_some, List.getLast?_concat, Option.mem_some_iff] at isLast
      subst isLast
      obtain rfl := effect.eq_of_started start started
      exact .refl _

theorem exists_starts_of_mem {changes : List Change} :
    ∀ start ∈ started r (changes.map (Change.step policy)),
      ∃ old target stop now, Starts policy old target stop now start := by
  induction changes generalizing r with
  | nil =>
    intro start member
    cases member
  | cons change changes inductionHypothesis =>
    intro start member
    simp only [List.map_cons, started, List.mem_append, Option.mem_toList] at member
    cases member with
    | inl isStart =>
      have effect := change.effect policy r
      rw [isStart] at effect
      cases effect with
      | starts starts => exact ⟨_, _, _, _, starts⟩
    | inr member => exact inductionHypothesis start member

/-- Between the ends of a ramp a coefficient is within the factor of the policy from its first one. -/
theorem Starts.near_of_mem {old : Ramp} {target stop now : Int} {amp : Nat}
    (starts : Starts policy old target stop now next) (changePos : 1 ≤ policy.maxChange)
    (between : amp ∈ Set.uIcc next.initial next.target) :
    (amp : Int) ≤ next.initial * policy.maxChange ∧ (next.initial : Int) ≤ amp * policy.maxChange := by
  have near := starts.near
  rw [← starts.fromFactor, ← starts.isTarget] at near
  simp only [tooFar, Bool.or_eq_false_iff, Bool.and_eq_false_iff, decide_eq_false_iff_not] at near
  have ampLe : (amp : Int) ≤ amp * policy.maxChange := le_mul_of_one_le_right (by omega) changePos
  have initialLe : (next.initial : Int) ≤ next.initial * policy.maxChange :=
    le_mul_of_one_le_right (by omega) changePos
  rw [Set.mem_uIcc] at between
  cases between with
  | inl rising => omega
  | inr falling =>
    have : (next.target : Int) * policy.maxChange ≤ amp * policy.maxChange :=
      mul_le_mul_of_nonneg_right (by omega) (by omega)
    omega

/-- An attempt that succeeds starts a ramp at its time to its target.  From any ramp, on a clock that
does not run backward, the ramps that a run of changes starts are at least the shortest duration apart,
freezes in between or not.  Whatever has become of the last one of them, at any time from its start the
coefficient in effect lies between the one at its start and its target, and within the factor of the
policy from the one at its start.

As `started` has one ramp for each attempt that succeeds, the runs that end before another ramp starts
are those with the same last ramp. -/
theorem ramps_keep_pace (policy : RampPolicy) (durationPos : 1 ≤ policy.minDuration)
    (changePos : 1 ≤ policy.maxChange) (r : Ramp) (changes : List Change) (ordered : Ordered changes) :
    let steps := changes.map (Change.step policy)
    (∀ (old next : Ramp) (target stop now : Int),
      (old.restart policy target stop now).outcome = .ok next →
      next.start = now ∧ (next.target : Int) = target) ∧
    (started r steps).Pairwise (fun one later => one.start + policy.minDuration ≤ later.start) ∧
    ∀ last ∈ (started r steps).getLast?, ∀ time, last.start ≤ time →
      (run r steps).factor time ∈ Set.uIcc (last.factor last.start) last.target ∧
      ((run r steps).factor time : Int) ≤ last.factor last.start * policy.maxChange ∧
      (last.factor last.start : Int) ≤ (run r steps).factor time * policy.maxChange := by
  intro steps
  refine ⟨?_, started_pairwise ordered, ?_⟩
  · intro old next target stop now restarted
    have starts := starts_of_restart restarted
    exact ⟨starts.isStart, starts.isTarget⟩
  · intro last isLast time begun
    obtain ⟨old, target, stop, now, starts⟩ :=
      exists_starts_of_mem last (List.mem_of_getLast? isLast)
    have between := (confined_of_last changes last isLast).factor time
    rw [factor_start (starts.start_lt_stop durationPos)]
    exact ⟨between, starts.near_of_mem changePos between⟩

/-- The two ramps of a rise and a fall start 140000 seconds apart, and in the middle of the fall from
550 to 100 the coefficient is 325. -/
theorem pace_of_riseAndFall :
    let first : Ramp := ⟨100, 100, 0, 0, by decide⟩
    let fall : Ramp := ⟨550, 100, 240000, 340000, by decide⟩
    started first (riseAndFall.map (Change.step {})) =
        [⟨100, 1000, 100000, 200000, by decide⟩, fall] ∧
      (100000 : Int) + 86400 ≤ 240000 ∧
      (run first (riseAndFall.map (Change.step {}))).factor 290000 = 325 ∧
      325 ∈ Set.uIcc 550 100 ∧ (550 : Int) ≤ 325 * 10 := by
  intro first fall
  have isStarted : started first (riseAndFall.map (Change.step {})) =
      [⟨100, 1000, 100000, 200000, by decide⟩, fall] := by decide
  have inTheMiddle : (run first (riseAndFall.map (Change.step {}))).factor 290000 = 325 := by decide
  have atStart : fall.factor fall.start = 550 := by decide
  obtain ⟨-, apart, moves⟩ := ramps_keep_pace {} (by decide) (by decide) first riseAndFall
    (by simp [Ordered, riseAndFall, Change.time])
  rw [isStarted] at apart moves
  obtain ⟨between, -, near⟩ := moves fall rfl 290000 (by decide)
  rw [inTheMiddle, atStart] at between near
  exact ⟨isStarted, (List.pairwise_cons.mp apart).1 fall (by simp), inTheMiddle, between, near⟩

end PegPool.Ramp
