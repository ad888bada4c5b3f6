import Mathlib.Order.Interval.Set.UnorderedInterval
import Mathlib.Order.Lattice.Nat
import PegPool.Proofs.Outcome
import PegPool.Ramp.Session

/-!
# Changes of a ramp

The coefficient in effect always lies between the two ends of the line (`factor_mem_uIcc`), and both
ways to change a ramp go on from it (`Starts.factor_now`, `factor_freeze`).  `RestartEnding` lists how
an attempt to start a ramp ends, with what decides it; a `Change` is such an attempt or a freeze, and
`started` are the ramps that a run of steps starts.
-/

namespace PegPool.Ramp

variable {r next : Ramp} {now : Int}

/-! ## The line -/

theorem make_eq_ok {initial target start stop : Int} : make initial target start stop = .ok r ↔
    (r.initial : Int) = initial ∧ (r.target : Int) = target ∧ r.start = start ∧ r.stop = stop := by
  have forward := r.start_le_stop
  unfold make
  split
  · simp only [reduceCtorEq, false_iff]
    omega
  · split
    · simp only [Except.ok.injEq, Ramp.ext_iff]
      omega
    · simp only [reduceCtorEq, false_iff]
      omega

theorem fixed_of_nonneg {amp : Int} (nonneg : 0 ≤ amp) :
    fixed amp = .ok ⟨amp.toNat, amp.toNat, 0, 0, Int.le_refl 0⟩ := by
  rw [fixed, make, if_neg (by omega), dif_pos (Int.le_refl 0)]

theorem fixed_of_neg {amp : Int} (negative : amp < 0) :
    fixed amp = .error .negativeCoefficient := by
  rw [fixed, make, if_pos (by omega)]

/-- The line never moves further than its whole distance. -/
theorem moved_le (distance : Nat) (onLine : r.onLine now) : r.moved distance now ≤ distance := by
  obtain ⟨begun, notOver⟩ := onLine
  apply Nat.div_le_of_le_mul
  rw [Nat.mul_comm]
  apply Nat.mul_le_mul_right
  omega

theorem moved_start (r : Ramp) (distance : Nat) : r.moved distance r.start = 0 := by
  simp [moved]

theorem factor_of_not_onLine (outside : ¬ r.onLine now) : r.factor now = r.target :=
  if_neg outside

theorem factor_mem_uIcc (r : Ramp) (now : Int) : r.factor now ∈ Set.uIcc r.initial r.target := by
  by_cases onLine : r.onLine now
  · rw [factor, if_pos onLine, Set.mem_uIcc]
    split
    case isTrue rising =>
      have := moved_le (r.target - r.initial) onLine
      omega
    case isFalse falling =>
      have := moved_le (r.initial - r.target) onLine
      omega
  · rw [factor_of_not_onLine onLine]
    exact Set.right_mem_uIcc

theorem factor_start (lasting : r.start < r.stop) : r.factor r.start = r.initial := by
  rw [factor, if_pos ⟨Int.le_refl _, lasting⟩, moved_start, moved_start]
  split <;> rfl

theorem factor_fixed {amp : Int} {ramp : Ramp} (fixed : fixed amp = .ok ramp) (now : Int) :
    (ramp.factor now : Int) = amp := by
  obtain ⟨-, isTarget, isStart, isStop⟩ := make_eq_ok.mp fixed
  rw [factor_of_not_onLine]
  · exact isTarget
  · rintro ⟨begun, notOver⟩
    omega

theorem factor_freeze (r : Ramp) (now any : Int) : (r.freeze now).factor any = r.factor now := by
  apply factor_of_not_onLine
  rintro ⟨begun, notOver⟩
  change now ≤ any at begun
  change any < now at notOver
  omega

/-! ## Starting a ramp -/

section Restart

variable {policy : RampPolicy} {target stop : Int}

/-- The policy lets a ramp start, and `next` is the ramp. -/
structure Starts (policy : RampPolicy) (r : Ramp) (target stop now : Int) (next : Ramp) : Prop where
  unlocked : r.start + policy.minDuration ≤ now
  lasting : now + policy.minDuration ≤ stop
  contained : policy.contains target = true
  near : tooFar target (r.factor now) policy.maxChange = false
  fromFactor : next.initial = r.factor now
  isTarget : (next.target : Int) = target
  isStart : next.start = now
  isStop : next.stop = stop

inductive RestartEnding (policy : RampPolicy) (r : Ramp) (target stop now : Int) :
    Except RampError Ramp → Prop where
  | locked (early : now < r.start + policy.minDuration) :
      RestartEnding policy r target stop now
        (.error (RampError.locked (r.start + policy.minDuration) now).told)
  | tooShort (short : stop < now + policy.minDuration) :
      RestartEnding policy r target stop now
        (.error (RampError.tooShort policy.minDuration stop now).told)
  | outOfBounds (outside : policy.contains target = false) :
      RestartEnding policy r target stop now
        (.error (RampError.outOfBounds target policy.minAmp policy.maxAmp).told)
  | tooFar (far : tooFar target (r.factor now) policy.maxChange = true) :
      RestartEnding policy r target stop now
        (.error (RampError.tooFar target (r.factor now) policy.maxChange).told)
  | malformed {fault : RampFault} (lasting : now + policy.minDuration ≤ stop)
      (contained : policy.contains target = true)
      (faulty : make (r.factor now) target now stop = .error fault) :
      RestartEnding policy r target stop now (.error (.malformed fault))
  | started {next : Ramp} (starts : Starts policy r target stop now next) :
      RestartEnding policy r target stop now (.ok next)

theorem restart_ending (policy : RampPolicy) (r : Ramp) (target stop now : Int) :
    RestartEnding policy r target stop now (r.restart policy target stop now).outcome := by
  simp only [restart, Traced.outcome_bind, Traced.outcome_ite, Traced.outcome_throw, error_bind,
    Traced.outcome_log, Traced.outcome_lift, ok_bind, Bool.not_eq_true']
  split
  case isTrue early => exact .locked early
  case isFalse unlocked =>
    split
    case isTrue short => exact .tooShort short
    case isFalse lasting =>
      split
      case isTrue outside => exact .outOfBounds outside
      case isFalse contained =>
        split
        case isTrue far => exact .tooFar far
        case isFalse near =>
          rw [Bool.not_eq_false] at contained
          cases made : make (r.factor now) target now stop with
          | error fault => exact .malformed (by omega) contained made
          | ok next =>
            obtain ⟨isInitial, isTarget, isStart, isStop⟩ := make_eq_ok.mp made
            exact .started ⟨by omega, by omega, contained, by simpa using near, by omega, isTarget,
              isStart, isStop⟩

theorem starts_of_restart (started : (r.restart policy target stop now).outcome = .ok next) :
    Starts policy r target stop now next := by
  have ending := restart_ending policy r target stop now
  rw [started] at ending
  cases ending with
  | started starts => exact starts

namespace Starts

variable (starts : Starts policy r target stop now next)

include starts

theorem start_lt_stop (durationPos : 1 ≤ policy.minDuration) : next.start < next.stop := by
  have := starts.isStart
  have := starts.isStop
  have := starts.lasting
  omega

/-- The coefficient in effect does not jump. -/
theorem factor_now (durationPos : 1 ≤ policy.minDuration) : next.factor now = r.factor now := by
  have atStart := factor_start (starts.start_lt_stop durationPos)
  rw [starts.isStart] at atStart
  rw [atStart, starts.fromFactor]

end Starts

end Restart

/-! ## Runs of changes -/

inductive Change where
  | restart (target stop now : Int)
  | freeze (now : Int)
deriving DecidableEq, Repr

namespace Change

def time : Change → Int
  | restart _ _ now => now
  | freeze now => now

def step (policy : RampPolicy) : Change → Step
  | restart target stop now => .restart policy target stop now
  | freeze now => .freeze now

end Change

/-- The ramp that a step starts, if it does. -/
def Step.started? (r : Ramp) : Step → Option Ramp
  | restart policy target stop now => (r.restart policy target stop now).outcome.toOption
  | _ => none

/-- The ramps that a run starts, in order. -/
def started (r : Ramp) : List Step → List Ramp
  | [] => []
  | s :: rest => (s.started? r).toList ++ started (s.after r) rest

theorem run_append (first rest : List Step) : run r (first ++ rest) = run (run r first) rest :=
  List.foldl_append

theorem started_append (first rest : List Step) :
    started r (first ++ rest) = started r first ++ started (run r first) rest := by
  induction first generalizing r with
  | nil => rfl
  | cons s first inductionHypothesis =>
    simp only [List.cons_append, started, inductionHypothesis, List.append_assoc]
    rfl

/-- What a change does: it starts a ramp, freezes it, or is refused and leaves it alone. -/
inductive Change.Effect (policy : RampPolicy) (r : Ramp) : Change → Option Ramp → Ramp → Prop where
  | starts {target stop now : Int} {next : Ramp} (starts : Starts policy r target stop now next) :
      Effect policy r (.restart target stop now) (some next) next
  | freezes (now : Int) : Effect policy r (.freeze now) none (r.freeze now)
  | refused {target stop now : Int} {e : RampError}
      (refused : (r.restart policy target stop now).outcome = .error e) :
      Effect policy r (.restart target stop now) none r

theorem Change.effect (policy : RampPolicy) (r : Ramp) (change : Change) :
    change.Effect policy r ((change.step policy).started? r) ((change.step policy).after r) := by
  cases change with
  | freeze now => exact .freezes now
  | restart target stop now =>
    simp only [step, Step.started?, Step.after, Step.run, Traced.outcome_bind, Traced.outcome_pure]
    cases attempt : (r.restart policy target stop now).outcome with
    | error e => exact .refused attempt
    | ok next => exact .starts (starts_of_restart attempt)

end PegPool.Ramp
