import PegPool.Traced

/-!
# Outcomes of chained computations

A calculation of the pool is a chain of steps, each with a value or a fault.  These lemmas take such
a chain apart: it comes to a value exactly if every step does (`bind_eq_ok`), and lifting a step
into a traced computation changes nothing about its outcome (`Traced.outcome_liftM`).
-/

namespace PegPool

/-- A chain of two computations comes to a value exactly through a value of the first. -/
theorem bind_eq_ok {ε α β : Type} {x : Except ε α} {f : α → Except ε β} {b : β} :
    x >>= f = .ok b ↔ ∃ a, x = .ok a ∧ f a = .ok b := by
  cases x <;> simp [bind, Except.bind]

theorem ok_bind {ε α β : Type} (a : α) (f : α → Except ε β) : (.ok a : Except ε α) >>= f = f a :=
  rfl

theorem error_bind {ε α β : Type} (e : ε) (f : α → Except ε β) :
    (.error e : Except ε α) >>= f = .error e :=
  rfl

theorem throw_bind {ε α β : Type} (e : ε) (f : α → Except ε β) :
    (throw e : Except ε α) >>= f = throw e :=
  rfl

theorem mapError_ok {ε δ α : Type} (f : ε → δ) (a : α) :
    (.ok a : Except ε α).mapError f = .ok a :=
  rfl

theorem mapError_error {ε δ α : Type} (f : ε → δ) (e : ε) :
    (.error e : Except ε α).mapError f = .error (f e) :=
  rfl

/-- Changing the fault of a computation does not change its values. -/
theorem mapError_eq_ok {ε δ α : Type} {x : Except ε α} {f : ε → δ} {a : α} :
    x.mapError f = .ok a ↔ x = .ok a := by
  cases x with
  | error e => simp only [mapError_error, reduceCtorEq]
  | ok b => rw [mapError_ok, Except.ok.injEq, Except.ok.injEq]

@[simp] theorem pure_eq_ok {ε α : Type} {a b : α} : (pure a : Except ε α) = .ok b ↔ a = b := by
  simp [pure, Except.pure]

@[simp] theorem throw_ne_ok {ε α : Type} {e : ε} {b : α} :
    (throw e : Except ε α) = .ok b ↔ False := by
  simp [throw, throwThe, MonadExceptOf.throw]

namespace Traced

variable {ε δ α : Type}

@[simp] theorem outcome_liftM (x : Except ε α) : (liftM x : Traced ε α).outcome = x := rfl

theorem ok_liftM_bind {β : Type} (a : α) (f : α → Traced ε β) :
    (liftM (.ok a : Except ε α) : Traced ε α) >>= f = f a :=
  rfl

@[simp] theorem outcome_throw (e : ε) : (throw e : Traced ε α).outcome = .error e := rfl

theorem outcome_ite (c : Prop) [Decidable c] (x y : Traced ε α) :
    (if c then x else y).outcome = if c then x.outcome else y.outcome := by
  split <;> rfl

end Traced

end PegPool
