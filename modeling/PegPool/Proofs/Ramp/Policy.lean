import PegPool.Proofs.Ramp.Change
import PegPool.Proofs.Word.Caught

/-!
# The coefficient under a policy

A pool starts with a fixed coefficient within its policy.  Whatever changes are then tried, at whatever
times, the ends of the line stay within the policy (`run_within`), and so does the coefficient in
effect at any time.  No change moves it at the time at which it is made.

A change that fails is refused.  The refusal shows numbers, at most a sum of two that the policy or a
change has brought in, so it can be written if all of these are `Short`.
-/

namespace PegPool

/-- An integer of at most 4299 digits. -/
def Text.Short (z : Int) : Prop :=
  10 * z.natAbs < writingLimit

instance (z : Int) : Decidable (Text.Short z) :=
  inferInstanceAs (Decidable (_ < _))

theorem Text.Short.isWritable {z : Int} (short : Short z) : isWritable z = true := by
  unfold Short at short
  rw [isWritable_iff]
  omega

theorem Text.Short.isWritable_add {z o : Int} (short : Short z) (short' : Short o) :
    Text.isWritable (z + o) = true := by
  unfold Short at short short'
  rw [isWritable_iff]
  omega

theorem Text.Short.of_between {z low high : Int} (below : low ≤ z) (above : z ≤ high) (short : Short low)
    (short' : Short high) : Short z := by
  unfold Short at *
  omega

/-- The error refuses a change; the remaining ones are that the change makes no ramp at all, and that
a refusal cannot be written. -/
def RampError.isRefusal : RampError → Bool
  | .malformed _ | .unwritable => false
  | _ => true

theorem RampError.told_of_writable {e : RampError}
    (writable : ∀ z ∈ e.numbers, Text.isWritable z = true) : e.told = e :=
  if_pos (List.all_eq_true.mpr writable)

theorem RampError.told_eq_or (e : RampError) : e.told = e ∨ e.told = .unwritable := by
  unfold told
  split
  · exact .inl rfl
  · exact .inr rfl

/-- The numbers of a policy have at most 4299 digits. -/
structure RampPolicy.Short (policy : RampPolicy) : Prop where
  minAmp : Text.Short policy.minAmp
  maxAmp : Text.Short policy.maxAmp
  minDuration : Text.Short policy.minDuration
  maxChange : Text.Short policy.maxChange

theorem RampPolicy.contains_iff {policy : RampPolicy} {amp : Int} :
    policy.contains amp = true ↔ policy.minAmp ≤ amp ∧ amp ≤ policy.maxAmp := by
  simp [contains]

namespace Ramp

variable {policy : RampPolicy} {r next : Ramp}

/-- Both ends of the line are within the policy. -/
structure Within (policy : RampPolicy) (r : Ramp) : Prop where
  initial : policy.contains r.initial = true
  target : policy.contains r.target = true

theorem Within.factor (within : Within policy r) (now : Int) :
    policy.contains (r.factor now) = true := by
  obtain ⟨initial, target⟩ := within
  have between := factor_mem_uIcc r now
  rw [RampPolicy.contains_iff] at *
  rw [Set.mem_uIcc] at between
  omega

theorem Within.of_fixed {amp : Int} (contained : policy.contains amp = true)
    (fixed : fixed amp = .ok r) : Within policy r := by
  obtain ⟨isInitial, isTarget, -⟩ := make_eq_ok.mp fixed
  constructor
  · rwa [isInitial]
  · rwa [isTarget]

namespace Change

variable {change : Change}

theorem Effect.within {started : Option Ramp} (effect : change.Effect policy r started next)
    (within : Within policy r) : Within policy next := by
  cases effect with
  | starts starts =>
    constructor
    · rw [starts.fromFactor]
      exact within.factor _
    · rw [starts.isTarget]
      exact starts.contained
  | freezes now => exact ⟨within.factor now, within.factor now⟩
  | refused refused => exact within

/-- The numbers of a change have at most 4299 digits. -/
def Short : Change → Prop
  | restart target stop now => Text.Short target ∧ Text.Short stop ∧ Text.Short now
  | freeze now => Text.Short now

theorem Effect.start_short {started : Option Ramp} (effect : change.Effect policy r started next)
    (short : change.Short) (startShort : Text.Short r.start) : Text.Short next.start := by
  cases effect with
  | starts starts =>
    rw [starts.isStart]
    exact short.2.2
  | freezes now => exact short
  | refused refused => exact startShort

/-- A change that fails is refused: a coefficient within the policy and a time to come make a ramp. -/
theorem exists_refusal (minNonneg : 0 ≤ policy.minAmp) (durationNonneg : 0 ≤ policy.minDuration)
    {e : RampError} (failed : ((change.step policy).run r).outcome = .error e) :
    ∃ refusal : RampError, e = refusal.told ∧ refusal.isRefusal = true ∧
      (policy.Short → change.Short → Text.Short r.start → Text.Short (r.factor change.time) →
        ∀ z ∈ refusal.numbers, Text.isWritable z = true) := by
  cases change with
  | freeze now => cases failed
  | restart target stop now =>
    have ending := restart_ending policy r target stop now
    simp only [step, Step.run, Traced.outcome_bind, Traced.outcome_pure] at failed
    cases attempt : (r.restart policy target stop now).outcome with
    | ok next =>
      rw [attempt] at failed
      cases failed
    | error fault =>
      rw [attempt] at failed ending
      cases failed
      generalize isError : Except.error e = ended at ending
      cases ending with
      | locked early =>
        cases isError
        refine ⟨_, rfl, rfl, ?_⟩
        rintro short ⟨-, -, nowShort⟩ startShort -
        simp [RampError.numbers, startShort.isWritable_add short.minDuration, nowShort.isWritable]
      | tooShort brief =>
        cases isError
        refine ⟨_, rfl, rfl, ?_⟩
        rintro short ⟨-, stopShort, nowShort⟩ - -
        simp [RampError.numbers, short.minDuration.isWritable, stopShort.isWritable, nowShort.isWritable]
      | outOfBounds outside =>
        cases isError
        refine ⟨_, rfl, rfl, ?_⟩
        rintro short ⟨targetShort, -, -⟩ - -
        simp [RampError.numbers, targetShort.isWritable, short.minAmp.isWritable, short.maxAmp.isWritable]
      | tooFar far =>
        cases isError
        refine ⟨_, rfl, rfl, ?_⟩
        rintro short ⟨targetShort, -, -⟩ - factorShort
        have factorWritable : Text.isWritable (r.factor now) = true := factorShort.isWritable
        simp [RampError.numbers, targetShort.isWritable, factorWritable, short.maxChange.isWritable]
      | malformed lasting contained faulty =>
        rw [RampPolicy.contains_iff] at contained
        rw [make, if_neg (by omega), dif_pos (by omega)] at faulty
        cases faulty
      | started starts => cases isError

theorem factor_of_run {answer : Answer} (durationPos : 1 ≤ policy.minDuration)
    (ran : ((change.step policy).run r).outcome = .ok (next, answer)) :
    next.factor change.time = r.factor change.time := by
  cases change with
  | freeze now =>
    cases ran
    exact factor_freeze r now now
  | restart target stop now =>
    simp only [step, Step.run, Traced.outcome_bind, bind_eq_ok] at ran
    obtain ⟨_, restarted, ended⟩ := ran
    cases ended
    exact (starts_of_restart restarted).factor_now durationPos

end Change

theorem run_within (within : Within policy r) (changes : List Change) :
    Within policy (run r (changes.map (Change.step policy))) := by
  induction changes generalizing r with
  | nil => exact within
  | cons change changes inductionHypothesis =>
    exact inductionHypothesis ((change.effect policy r).within within)

theorem run_start_short (startShort : Text.Short r.start) (changes : List Change)
    (short : ∀ change ∈ changes, change.Short) :
    Text.Short (run r (changes.map (Change.step policy))).start := by
  induction changes generalizing r with
  | nil => exact startShort
  | cons change changes inductionHypothesis =>
    have effect := change.effect policy r
    apply inductionHypothesis (effect.start_short (short change List.mem_cons_self) startShort)
    intro later among
    exact short later (List.mem_cons_of_mem change among)

/-- A fixed coefficient within a policy makes a ramp.  After every run of changes of it, at whatever
times they are tried, the ends of the line and the coefficient in effect at any time are within the
policy, and a change that succeeds leaves the coefficient at its time as it was.  One that fails is
refused, or its refusal cannot be written; the second does not happen if the policy and the changes
have numbers of at most 4299 digits. -/
theorem coefficient_within_policy (policy : RampPolicy) (minNonneg : 0 ≤ policy.minAmp)
    (durationPos : 1 ≤ policy.minDuration) (amp : Int) (contained : policy.contains amp = true) :
    ∃ first, fixed amp = .ok first ∧ ∀ changes : List Change,
      let r := run first (changes.map (Change.step policy))
      (policy.contains r.initial = true ∧ policy.contains r.target = true ∧ r.start ≤ r.stop) ∧
      (∀ time, policy.contains (r.factor time) = true) ∧
      ∀ change : Change,
        (∀ e, ((change.step policy).run r).outcome = .error e →
          (e.isRefusal = true ∨ e = .unwritable) ∧
          (policy.Short → (∀ c ∈ change :: changes, c.Short) → e.isRefusal = true)) ∧
        ∀ next answer, ((change.step policy).run r).outcome = .ok (next, answer) →
          next.factor change.time = r.factor change.time := by
  have least := RampPolicy.contains_iff.mp contained
  refine ⟨_, fixed_of_nonneg (by omega), ?_⟩
  intro changes r
  have within : Within policy r :=
    run_within (.of_fixed contained (fixed_of_nonneg (by omega))) changes
  refine ⟨⟨within.initial, within.target, r.start_le_stop⟩, within.factor, ?_⟩
  intro change
  constructor
  · intro e failed
    obtain ⟨refusal, rfl, isRefusal, shown⟩ := Change.exists_refusal minNonneg (by omega) failed
    constructor
    · rcases refusal.told_eq_or with told | unwritable
      · exact .inl (by rw [told]; exact isRefusal)
      · exact .inr unwritable
    · intro policyShort short
      obtain ⟨changeShort, changesShort⟩ := List.forall_mem_cons.mp short
      have zeroShort : Text.Short 0 := by decide +kernel
      have startShort : Text.Short r.start := run_start_short zeroShort changes changesShort
      obtain ⟨above, below⟩ := RampPolicy.contains_iff.mp (within.factor change.time)
      have factorShort := Text.Short.of_between above below policyShort.minAmp policyShort.maxAmp
      rw [RampError.told_of_writable (shown policyShort changeShort startShort factorShort)]
      exact isRefusal
  · intro next answer ran
    exact Change.factor_of_run durationPos ran

/-- A rise from 100 that is frozen half way, after a second one was tried too early, and a fall from
there. -/
def riseAndFall : List Change :=
  [.restart 1000 200000 100000, .restart 900 400000 140000, .freeze 150000,
    .restart 100 340000 240000]

/-- In the middle of the fall the coefficient is 325; it is so after a freeze, too. -/
theorem coefficient_of_riseAndFall : ∃ first, fixed 100 = .ok first ∧
    let r := run first (riseAndFall.map (Change.step {}))
    r = ⟨550, 100, 240000, 340000, by decide⟩ ∧ r.factor 290000 = 325 ∧
      ({} : RampPolicy).contains (r.factor 290000) = true ∧
      (r.freeze 290000).factor 290000 = r.factor 290000 := by
  obtain ⟨first, isFirst, always⟩ :=
    coefficient_within_policy {} (by decide) (by decide) 100 (by decide)
  refine ⟨first, isFirst, ?_⟩
  cases isFirst
  obtain ⟨-, within, changed⟩ := always riseAndFall
  exact ⟨rfl, rfl, within 290000, (changed (.freeze 290000)).2 _ _ rfl⟩

/-- Ramps have to last a number of seconds that just can be written.  After a freeze at time 1 the end
of the lock cannot. -/
def longLasting : RampPolicy where
  minDuration := 10 ^ 4300 - 1

/-- An attempt to start a ramp during such a lock does not end in a refusal. -/
theorem long_lock_is_not_told : 0 ≤ longLasting.minAmp ∧ 1 ≤ longLasting.minDuration ∧
    longLasting.contains 100 = true ∧ ∃ first, fixed 100 = .ok first ∧
      let r := run first [Change.step longLasting (.freeze 1)]
      ((Change.step longLasting (.restart 100 0 0)).run r).outcome = .error .unwritable ∧
        RampError.unwritable.isRefusal = false :=
  ⟨by decide, by decide +kernel, by decide, ⟨100, 100, 0, 0, by decide⟩, by decide +kernel,
    by decide +kernel, rfl⟩

end Ramp

end PegPool
