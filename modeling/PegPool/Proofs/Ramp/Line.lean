import Mathlib.Algebra.Order.Ring.Int
import PegPool.Proofs.Ramp.Change

/-!
# The course of the line

From its start to its end, the end included, a ramp has moved the coefficient by the elapsed part of the
distance between its ends, rounded down (`factor_movedBy`).  As both directions share this one number,
the coefficient is less than one unit short of the exact line on the side of the start, and never goes
back (`factor_follows_line`).
-/

namespace PegPool.Ramp

variable {r : Ramp} {now later : Int}

/-! ## The distance moved -/

/-- What is moved is less than one unit short of the elapsed part of the distance. -/
theorem moved_bounds (lasting : r.start < r.stop) (begun : r.start ≤ now) (distance : Nat) :
    (r.stop - r.start) * (r.moved distance now : Int) ≤ distance * (now - r.start) ∧
      distance * (now - r.start) < (r.stop - r.start) * ((r.moved distance now : Int) + 1) := by
  obtain ⟨duration, isDuration⟩ := Int.eq_ofNat_of_zero_le (show 0 ≤ r.stop - r.start by omega)
  obtain ⟨elapsed, isElapsed⟩ := Int.eq_ofNat_of_zero_le (show 0 ≤ now - r.start by omega)
  have isMoved : r.moved distance now = distance * elapsed / duration := by
    rw [moved, isDuration, isElapsed, Int.toNat_natCast, Int.toNat_natCast]
  have below := Nat.mul_div_le (distance * elapsed) duration
  have above := Nat.lt_mul_div_succ (distance * elapsed) (show 0 < duration by omega)
  rw [isMoved, isDuration, isElapsed]
  constructor
  · exact_mod_cast below
  · exact_mod_cast above

theorem moved_mono (ordered : now ≤ later) (distance : Nat) :
    r.moved distance now ≤ r.moved distance later := by
  apply Nat.div_le_div_right
  apply Nat.mul_le_mul_left
  omega

theorem moved_stop (lasting : r.start < r.stop) (distance : Nat) : r.moved distance r.stop = distance := by
  apply Nat.mul_div_cancel
  omega

/-! ## The coefficient in effect -/

def distance (r : Ramp) : Nat :=
  ((r.target : Int) - r.initial).natAbs

/-- The coefficient is so many units away from the start of the line, and the others from its end. -/
structure MovedBy (r : Ramp) (units amp : Nat) : Prop where
  fromInitial : ((amp : Int) - r.initial).natAbs = units
  toTarget : ((r.target : Int) - amp).natAbs + units = r.distance

/-- The coefficient is the target from the end of the line on, where the line has come to it as well. -/
theorem factor_movedBy (lasting : r.start < r.stop) (begun : r.start ≤ now) (notOver : now ≤ r.stop) :
    r.MovedBy (r.moved r.distance now) (r.factor now) := by
  obtain atStop | onLine := notOver.eq_or_lt
  · have outside : ¬ r.onLine now := fun onLine => by
      have := onLine.2
      omega
    rw [factor_of_not_onLine outside, atStop, moved_stop lasting]
    constructor
    · rfl
    · omega
  · have whole : r.distance = ((r.target : Int) - r.initial).natAbs := rfl
    have within := moved_le r.distance ⟨begun, onLine⟩
    rw [factor, if_pos ⟨begun, onLine⟩]
    split
    case isTrue rising =>
      rw [show r.target - r.initial = r.distance by omega]
      constructor
      · omega
      · omega
    case isFalse falling =>
      rw [show r.initial - r.target = r.distance by omega]
      constructor
      · omega
      · omega

theorem toTarget_anti (lasting : r.start < r.stop) (begun : r.start ≤ now) (ordered : now ≤ later) :
    ((r.target : Int) - r.factor later).natAbs ≤ ((r.target : Int) - r.factor now).natAbs := by
  by_cases ended : r.stop < later
  · have outside : ¬ r.onLine later := fun onLine => by
      have := onLine.2
      omega
    rw [factor_of_not_onLine outside, Int.sub_self]
    exact Nat.zero_le _
  · have first := (factor_movedBy lasting begun (by omega)).toTarget
    have second := (factor_movedBy lasting (begun.trans ordered) (Int.not_lt.mp ended)).toTarget
    have := moved_mono (r := r) ordered r.distance
    omega

/-- Four numbers that make a line make one that the coefficient follows, rounded toward its start: from
the start to the stop it lies between the two ends, and its distance from the first one is less than one
unit short of the elapsed part of the whole.  It begins at the first end and has come to the second one at
the stop, and from the start on, for all times, it only comes closer to the target. -/
theorem factor_follows_line {initial target start stop : Int} {r : Ramp}
    (made : make initial target start stop = .ok r) (lasting : start < stop) :
    (∀ now, start ≤ now → now ≤ stop →
      (r.factor now : Int) ∈ Set.uIcc initial target ∧
      (stop - start) * |(r.factor now : Int) - initial| ≤ |target - initial| * (now - start) ∧
      |target - initial| * (now - start) <
        (stop - start) * (|(r.factor now : Int) - initial| + 1)) ∧
    (r.factor start : Int) = initial ∧ (r.factor stop : Int) = target ∧
    ∀ now later, start ≤ now → now ≤ later →
      |target - (r.factor later : Int)| ≤ |target - (r.factor now : Int)| := by
  obtain ⟨rfl, rfl, rfl, rfl⟩ := make_eq_ok.mp made
  refine ⟨fun now begun notOver => ⟨?_, ?_⟩, ?_, ?_, fun now later begun ordered => ?_⟩
  · have between := factor_mem_uIcc r now
    rw [Set.mem_uIcc] at between ⊢
    omega
  · have bounds := moved_bounds lasting begun r.distance
    rw [← (factor_movedBy lasting begun notOver).fromInitial] at bounds
    rw [Int.abs_eq_natAbs, Int.abs_eq_natAbs]
    exact bounds
  · rw [factor_start lasting]
  · have atStop := (factor_movedBy lasting lasting.le (Int.le_refl _)).toTarget
    rw [moved_stop lasting] at atStop
    omega
  · rw [Int.abs_eq_natAbs, Int.abs_eq_natAbs]
    exact_mod_cast toTarget_anti lasting begun ordered

/-- A fall by 93 within eleven seconds has come to 58 after five of them, 42 of 42.27 units away from its
start, and is closer to its target after nine. -/
theorem line_of_fall :
    let fall : Ramp := ⟨100, 7, -3, 8, by decide⟩
    make 100 7 (-3) 8 = .ok fall ∧ fall.factor 2 = 58 ∧ fall.factor 6 = 24 ∧
      (8 - (-3)) * |(58 : Int) - 100| ≤ |(7 : Int) - 100| * (2 - (-3)) ∧
      |(7 : Int) - 100| * (2 - (-3)) < (8 - (-3)) * (|(58 : Int) - 100| + 1) ∧
      |(7 : Int) - 24| ≤ |(7 : Int) - 58| := by
  intro fall
  have made : make 100 7 (-3) 8 = .ok fall := by decide
  have atTwo : fall.factor 2 = 58 := by decide
  have atSix : fall.factor 6 = 24 := by decide
  obtain ⟨along, -, -, closer⟩ := factor_follows_line made (by decide)
  obtain ⟨-, below, above⟩ := along 2 (by decide) (by decide)
  have nearer := closer 2 6 (by decide) (by decide)
  rw [atTwo] at below above nearer
  rw [atSix] at nearer
  exact ⟨made, atTwo, atSix, below, above, nearer⟩

end PegPool.Ramp
