import PegPool.Proofs.Outcome
import PegPool.Word

/-!
# Faults of arithmetic

A calculation on integers that comes to no value says so by a fault of arithmetic, which a caller
takes for the absence of an answer.  The other kind of fault, an operand that is no number, can only
come from reading one (`Word.read`).
-/

namespace PegPool

variable {α β : Type}

/-- Whatever fault the computation has is one of arithmetic. -/
def FailsInArithmetic (x : Except Fault α) : Prop :=
  ∀ fault, x = .error fault → fault.isArithmetic = true

theorem FailsInArithmetic.ok (a : α) : FailsInArithmetic (.ok a) := by
  intro fault failed
  cases failed

theorem FailsInArithmetic.pure (a : α) : FailsInArithmetic (pure a) :=
  .ok a

theorem FailsInArithmetic.error {fault : Fault} (arithmetic : fault.isArithmetic = true) :
    FailsInArithmetic (.error fault : Except Fault α) := by
  intro fault' failed
  cases failed
  exact arithmetic

theorem FailsInArithmetic.bind {x : Except Fault α} {f : α → Except Fault β}
    (first : FailsInArithmetic x) (rest : ∀ a, FailsInArithmetic (f a)) :
    FailsInArithmetic (x >>= f) := by
  intro fault failed
  cases x with
  | error e =>
    cases failed
    exact first _ rfl
  | ok a => exact rest a fault failed

theorem FailsInArithmetic.exists_fault {x : Except Fault α} (fails : FailsInArithmetic x)
    (noValue : ∀ a, x ≠ .ok a) : ∃ fault : Fault, x = .error fault ∧ fault.isArithmetic = true := by
  cases x with
  | error fault => exact ⟨fault, rfl, fails fault rfl⟩
  | ok a => exact absurd rfl (noValue a)

namespace Word

variable (s : Word) (o : Int)

@[simp] theorem ofInt_fails : FailsInArithmetic (ofInt o) := by
  unfold ofInt
  split
  · exact .error rfl
  · split
    · exact .ok _
    · exact .error rfl

@[simp] theorem add_fails : FailsInArithmetic (s.add o) :=
  ofInt_fails _

@[simp] theorem mul_fails : FailsInArithmetic (s.mul o) :=
  ofInt_fails _

@[simp] theorem sub_fails : FailsInArithmetic (s.sub o) := by
  unfold sub
  split
  · exact .error rfl
  · exact ofInt_fails _

@[simp] theorem div_fails : FailsInArithmetic (s.div o) := by
  unfold div
  split
  · exact .error rfl
  · exact ofInt_fails _

@[simp] theorem narrow_fails : FailsInArithmetic s.narrow := by
  unfold narrow
  split
  · exact .ok _
  · exact .error rfl

theorem narrowed_fails : FailsInArithmetic s.narrowed :=
  (narrow_fails s).bind fun _ => .pure s

end Word

end PegPool
