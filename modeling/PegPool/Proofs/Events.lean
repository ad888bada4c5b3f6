import PegPool.Exchange
import PegPool.Proofs.Outcome

/-!
# What a computation tells

A property of all events of a traced computation (`Traced.Tells`) is passed on by chaining: it holds
of a chain if it holds of the first step and, for the value that the first step comes to, of the
rest.

The curve tells of nothing but iterations that were cut off, and so do the calculations that solve
it (`Exchange.withdrawOne_tells`).
-/

namespace PegPool

namespace Traced

variable {ε δ α β : Type} {P Q : Event → Prop} {x : Traced ε α}

/-- All events of the computation have the property. -/
def Tells (P : Event → Prop) (x : Traced ε α) : Prop :=
  ∀ e ∈ x.events, P e

theorem Tells.imp (tells : x.Tells P) (weaker : ∀ e, P e → Q e) : x.Tells Q :=
  fun e happened => weaker e (tells e happened)

theorem tells_pure (a : α) : (pure a : Traced ε α).Tells P :=
  List.forall_mem_nil _

theorem tells_liftM (x : Except ε α) : (liftM x : Traced ε α).Tells P :=
  List.forall_mem_nil _

theorem tells_log {e : Event} (holds : P e) : (log e : Traced ε Unit).Tells P :=
  List.forall_mem_singleton.mpr holds

theorem Tells.bind {f : α → Traced ε β} (first : x.Tells P)
    (rest : ∀ a, x.outcome = .ok a → (f a).Tells P) : (x >>= f).Tells P := by
  unfold Tells
  rw [events_bind]
  cases value : x.outcome with
  | error fault => exact List.forall_mem_append.mpr ⟨first, List.forall_mem_nil _⟩
  | ok a => exact List.forall_mem_append.mpr ⟨first, rest a value⟩

theorem tells_liftM_bind {step : Except ε α} {f : α → Traced ε β} :
    (liftM step >>= f : Traced ε β).Tells P ↔ ∀ a, step = .ok a → (f a).Tells P := by
  constructor
  · intro tells a value
    rw [value] at tells
    exact tells
  · exact (tells_liftM step).bind

theorem Tells.attempt (tells : x.Tells P) : (x.attempt : Traced δ (Option α)).Tells P :=
  tells

/-- A computation without errors has its value for an outcome. -/
theorem outcome_eq_ok_value (x : Traced Empty α) : x.outcome = .ok x.value := by
  unfold value
  split
  case h_1 a outcome => exact outcome
  case h_2 fault _ => cases fault

theorem outcome_of_attempt {a : α} (value : (x.attempt : Traced δ (Option α)).outcome = .ok (some a)) :
    x.outcome = .ok a := by
  rw [outcome_attempt] at value
  cases outcome : x.outcome with
  | error fault =>
    rw [outcome] at value
    cases value
  | ok b =>
    rw [outcome] at value
    cases value
    rfl

theorem outcome_of_attempt_none
    (failed : (x.attempt : Traced δ (Option α)).outcome = .ok none) : ∃ e, x.outcome = .error e := by
  rw [outcome_attempt] at failed
  cases outcome : x.outcome with
  | error e => exact ⟨e, rfl⟩
  | ok b =>
    rw [outcome] at failed
    cases failed

end Traced

def Event.IsUnsettled : Event → Prop
  | invariantUnsettled .. | reserveUnsettled .. => True
  | _ => False

open Traced (Tells tells_pure tells_liftM tells_log tells_liftM_bind)

namespace Curve

variable (cap : Nat) (a b x d amp : Operand)

theorem invariant_tells : Tells Event.IsUnsettled (invariant cap a b amp) := by
  simp only [invariant, tells_liftM_bind]
  intros
  split
  · exact tells_pure _
  · simp only [tells_liftM_bind]
    intros
    split
    · exact tells_pure _
    · exact (tells_log trivial).bind fun _ _ => tells_pure _

theorem otherReserve_tells : Tells Event.IsUnsettled (otherReserve cap x d amp) := by
  simp only [otherReserve, tells_liftM_bind]
  intros
  split
  · exact tells_pure _
  · exact (tells_log trivial).bind fun _ _ => tells_pure _

theorem otherAmount_tells : Tells Event.IsUnsettled (otherAmount cap x d amp) := by
  refine (otherReserve_tells cap x d amp).bind fun y _ => ?_
  exact tells_liftM_bind.mpr fun _ _ => tells_liftM _

end Curve

theorem Exchange.withdrawOne_tells (cap : Nat) (fees : Fees) (amp burned supply base quote : Int) :
    Tells Event.IsUnsettled (withdrawOne cap fees amp burned supply base quote) := by
  refine (Curve.invariant_tells cap base quote amp).bind fun d0 _ => ?_
  simp only [tells_liftM_bind]
  intros
  refine (Curve.otherAmount_tells cap _ _ amp).bind fun newY _ => ?_
  simp only [tells_liftM_bind]
  intros
  refine (Curve.otherAmount_tells cap _ _ amp).bind fun adjustedY _ => ?_
  simp only [tells_liftM_bind]
  intros
  exact tells_pure _

end PegPool
