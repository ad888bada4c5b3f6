import PegPool.Proofs.Word.Caught

/-!
# Guarded calculations

A fault that arises within a calculation is caught there, and then the calculation has no answer, or
it breaks the calculation off.  The calculations of the pool do not tell where a fault is caught.  A
`Guarded` calculation does: faults are caught in those parts of it that are under `guarding`, and
nowhere else.

`Guarded.ofOutcome` is a calculation with a guard around the whole.  Guards commute with chaining
(`ofOutcome_bind`, `guarding_bind`), so that `simp` takes a guarded chain and the chain without guards
to the same steps.
-/

namespace PegPool

/-- A calculation that comes to a value, to no answer, or to a fault that it does not catch. -/
abbrev Guarded (α : Type) := OptionT (Except Fault) α

namespace Guarded

variable {α β : Type}

/-- Catches the faults in a part of a calculation that can be caught: there is no answer then. -/
def guarding (x : Guarded α) : Guarded α :=
  OptionT.mk <| match x.run with
    | .ok answer => .ok answer
    | .error fault => if fault.isCaught then .ok none else .error fault

/-- The calculation that answers with the value of `y`, or not if the fault of `y` is caught. -/
def ofOutcome (y : Except Fault α) : Guarded α :=
  guarding (liftM y)

/-- Two parts of which the second one runs even if the first has no answer. -/
def both (x : Guarded α) (y : Guarded β) : Guarded (α × β) :=
  OptionT.mk do
    let a ← x.run
    let b ← y.run
    return (do return (← a, ← b))

/-- The calculation is not broken off: it has the value of `y` for an answer, or none. -/
def Answers (x : Guarded α) (y : Except Fault α) : Prop :=
  x.run = .ok y.toOption

theorem answers_of_caught {x : Guarded α} {y : Except Fault α} {P : α → Prop} (same : x = ofOutcome y)
    (caught : Caught y P) : Answers x y := by
  rw [same]
  cases y with
  | ok a => rfl
  | error fault => exact if_pos (caught.faults fault rfl)

theorem ends (x : Guarded α) : x = failure ∨ (∃ a, x = pure a) ∨
    ∃ fault, x = liftM (.error fault : Except Fault α) := by
  cases ran : x.run with
  | ok answer =>
    cases answer with
    | none => exact .inl (OptionT.ext ran)
    | some a => exact .inr (.inl ⟨a, OptionT.ext ran⟩)
  | error fault => exact .inr (.inr ⟨fault, OptionT.ext ran⟩)

theorem fault_bind (fault : Fault) (f : α → Guarded β) :
    liftM (.error fault : Except Fault α) >>= f = liftM (.error fault : Except Fault β) :=
  rfl

/-! ## Outcomes -/

@[simp] theorem ofOutcome_ok (a : α) : ofOutcome (.ok a) = pure a :=
  rfl

@[simp] theorem ofOutcome_pure (a : α) : ofOutcome (pure a : Except Fault α) = pure a :=
  rfl

theorem ofOutcome_error (fault : Fault) : ofOutcome (.error fault : Except Fault α) =
    if fault.isCaught then failure else liftM (.error fault : Except Fault α) := by
  apply OptionT.ext
  cases caught : fault.isCaught with
  | true => exact if_pos caught
  | false => exact if_neg (by simp [caught])

theorem ofOutcome_of_caught {fault : Fault} (caught : fault.isCaught = true) :
    ofOutcome (.error fault : Except Fault α) = failure := by
  rw [ofOutcome_error, if_pos caught]

@[simp] theorem ofOutcome_throw {fault : Fault} (caught : fault.isCaught = true) :
    ofOutcome (throw fault : Except Fault α) = failure :=
  ofOutcome_of_caught caught

@[simp] theorem ofOutcome_bind (y : Except Fault α) (g : α → Except Fault β) :
    ofOutcome (y >>= g) = ofOutcome y >>= fun a => ofOutcome (g a) := by
  cases y with
  | ok a => rfl
  | error fault =>
    rw [error_bind, ofOutcome_error, ofOutcome_error]
    split <;> rfl

@[simp] theorem ofOutcome_map (f : α → β) (y : Except Fault α) :
    ofOutcome (f <$> y) = f <$> ofOutcome y := by
  simp only [← bind_pure_comp, ofOutcome_bind]
  rfl

@[simp] theorem ofOutcome_ite (c : Prop) [Decidable c] (y z : Except Fault α) :
    ofOutcome (if c then y else z) = if c then ofOutcome y else ofOutcome z :=
  apply_ite ofOutcome c y z

/-- To run the second part without an answer of the first changes nothing if its faults are caught. -/
theorem both_ofOutcome (y : Except Fault α) {z : Except Fault β} {P : β → Prop} (caught : Caught z P) :
    both (ofOutcome y) (ofOutcome z) = do return (← ofOutcome y, ← ofOutcome z) := by
  cases y with
  | ok a =>
    cases z with
    | ok b => rfl
    | error fault =>
      rw [ofOutcome_of_caught (caught.faults fault rfl)]
      rfl
  | error fault =>
    rw [ofOutcome_error]
    split
    · cases z with
      | ok b => rfl
      | error fault' =>
        rw [ofOutcome_of_caught (caught.faults fault' rfl)]
        rfl
    · rfl

/-- What follows an outcome matters only for the value that it has. -/
theorem ofOutcome_bind_congr {y : Except Fault α} {f g : α → Guarded β}
    (same : ∀ a, y = .ok a → f a = g a) : ofOutcome y >>= f = ofOutcome y >>= g := by
  cases y with
  | ok a => exact same a rfl
  | error fault =>
    rw [ofOutcome_error]
    split <;> rfl

/-! ## Guards -/

@[simp] theorem guarding_pure (a : α) : guarding (pure a) = pure a :=
  rfl

@[simp] theorem guarding_lift (y : Except Fault α) : guarding (liftM y) = ofOutcome y :=
  rfl

@[simp] theorem guarding_ofOutcome (y : Except Fault α) : guarding (ofOutcome y) = ofOutcome y := by
  cases y with
  | ok a => rfl
  | error fault =>
    rw [ofOutcome_error]
    split
    case isTrue caught => rfl
    case isFalse broken => rw [guarding_lift, ofOutcome_error, if_neg broken]

@[simp] theorem guarding_bind (x : Guarded α) (f : α → Guarded β) :
    guarding (x >>= f) = guarding x >>= fun a => guarding (f a) := by
  obtain rfl | ⟨a, rfl⟩ | ⟨fault, rfl⟩ := ends x
  · rfl
  · rw [pure_bind, guarding_pure, pure_bind]
  · rw [fault_bind, guarding_lift, guarding_lift, ofOutcome_error, ofOutcome_error]
    split <;> rfl

@[simp] theorem guarding_map (f : α → β) (x : Guarded α) :
    guarding (f <$> x) = f <$> guarding x := by
  simp only [← bind_pure_comp, guarding_bind, guarding_pure]

@[simp] theorem guarding_ite (c : Prop) [Decidable c] (x y : Guarded α) :
    guarding (if c then x else y) = if c then guarding x else guarding y :=
  apply_ite guarding c x y

end Guarded

end PegPool
