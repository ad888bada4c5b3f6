import PegPool.Curve.Settle
import PegPool.Proofs.Word.Caught
import PegPool.Proofs.Word.Faults

/-!
# What an iteration keeps

A property that every step keeps holds of the value at which `settle` ends, whatever ends it
(`settle_keeps`).  A property indexed by the number of steps tells what is known when the iteration
ends (`settle_ends`), and if it is impossible at the cap, that it ends by itself (`settle_converges`).
-/

namespace PegPool.Curve

variable {step : Word → Except Fault Word}

theorem close_iff {x y : Word} : close x y = true ↔ x.val ≤ y.val + 1 ∧ y.val ≤ x.val + 1 := by
  simp [close]

/-- If every value from which the iteration may go on has a next value with a property, then the
iteration ends in a value with that property. -/
theorem settle_keeps_until_close {P R : Word → Prop}
    (total : ∀ x, P x → ∃ y, step x = .ok y ∧ R y ∧ (close y x = true ∨ P y))
    (weaker : ∀ x, P x → R x) (cap : Nat) {x : Word} (start : P x) :
    ∃ r, settle step cap x = .ok r ∧ R r.value := by
  induction cap generalizing x with
  | zero => exact ⟨⟨x, false⟩, rfl, weaker x start⟩
  | succ cap inductionHypothesis =>
    obtain ⟨y, stepped, kept, next⟩ := total x start
    simp only [settle, stepped]
    split
    case isTrue => exact ⟨⟨y, true⟩, rfl, kept⟩
    case isFalse notClose => exact inductionHypothesis (next.resolve_left notClose)

/-- If every value with a property has a next value with it, the iteration ends in one. -/
theorem settle_keeps {P : Word → Prop} (total : ∀ x, P x → ∃ y, step x = .ok y ∧ P y)
    (cap : Nat) {x : Word} (start : P x) : ∃ r, settle step cap x = .ok r ∧ P r.value := by
  apply settle_keeps_until_close _ (fun _ known => known) cap start
  intro x known
  obtain ⟨y, stepped, kept⟩ := total x known
  exact ⟨y, stepped, kept, .inr kept⟩

theorem settle_fails (fails : ∀ x, FailsInArithmetic (step x)) (cap : Nat) (x : Word) :
    FailsInArithmetic (settle step cap x) := by
  induction cap generalizing x with
  | zero => exact .ok _
  | succ cap inductionHypothesis =>
    unfold settle
    split
    case h_1 fault stepped => exact .error (fails x fault stepped)
    case h_2 y stepped =>
      split
      · exact .ok _
      · exact inductionHypothesis y

theorem settle_caught (caught : ∀ x, Caught (step x)) (cap : Nat) (x : Word) :
    Caught (settle step cap x) := by
  induction cap generalizing x with
  | zero => exact .ok trivial
  | succ cap inductionHypothesis =>
    unfold settle
    split
    case h_1 fault stepped => exact .error ((caught x).faults fault stepped)
    case h_2 y stepped =>
      split
      · exact .ok trivial
      · exact inductionHypothesis y

theorem first_step_of_settle {cap : Nat} {x : Word} {r : Settled}
    (settled : settle step (cap + 1) x = .ok r) : ∃ y, step x = .ok y := by
  cases stepped : step x with
  | ok y => exact ⟨y, rfl⟩
  | error e => simp [settle, stepped] at settled

theorem last_step_of_settle {cap : Nat} {x : Word} {r : Settled}
    (settled : settle step (cap + 1) x = .ok r) : ∃ z, step z = .ok r.value := by
  induction cap generalizing x with
  | zero =>
    obtain ⟨y, stepped⟩ := first_step_of_settle settled
    simp only [settle, stepped] at settled
    split at settled <;> cases settled <;> exact ⟨x, stepped⟩
  | succ cap inductionHypothesis =>
    obtain ⟨y, stepped⟩ := first_step_of_settle settled
    rw [settle, stepped] at settled
    dsimp only at settled
    split at settled
    · cases settled
      exact ⟨x, stepped⟩
    · exact inductionHypothesis settled

/-- Let `P n x` be what is known of the value `x` after `n` steps.  The iteration ends with a step that
settles it or is the last one before the cap. -/
theorem settle_ends {P : Nat → Word → Prop}
    (total : ∀ n x, P n x → ∃ y, step x = .ok y ∧ P (n + 1) y) (cap : Nat) {n : Nat} {x : Word}
    (start : P n x) : ∃ m z y, P m z ∧ step z = .ok y ∧ (close y z = true ∨ m = n + cap) ∧
      settle step (cap + 1) x = .ok ⟨y, close y z⟩ := by
  induction cap generalizing n x with
  | zero =>
    obtain ⟨y, stepped, -⟩ := total n x start
    refine ⟨n, x, y, start, stepped, .inr rfl, ?_⟩
    cases isClose : close y x <;> simp [settle, stepped, isClose]
  | succ cap inductionHypothesis =>
    obtain ⟨y, stepped, known⟩ := total n x start
    by_cases isClose : close y x = true
    · exact ⟨n, x, y, start, stepped, .inl isClose, by rw [settle, stepped]; simp [isClose]⟩
    · obtain ⟨m, z, w, last, lastStep, ended, settled⟩ := inductionHypothesis known
      refine ⟨m, z, w, last, lastStep, ended.imp_right (by omega), ?_⟩
      rw [settle, stepped]
      simpa [isClose] using settled

/-- Let `P n x` be what is known of the value `x` after `n` steps that did not settle.  If it is
impossible when the cap is reached, then the iteration settles, by a step from a value that had the
property. -/
theorem settle_converges {P : Nat → Word → Prop}
    (total : ∀ n x, P n x → ∃ y, step x = .ok y ∧ (close y x = true ∨ P (n + 1) y))
    (cap : Nat) {n : Nat} {x : Word} (start : P n x) (impossible : ∀ y, ¬ P (n + cap) y) :
    ∃ m z y, P m z ∧ step z = .ok y ∧ close y z = true ∧ settle step cap x = .ok ⟨y, true⟩ := by
  induction cap generalizing n x with
  | zero => exact absurd start (impossible x)
  | succ cap inductionHypothesis =>
    obtain ⟨y, stepped, isClose | next⟩ := total n x start
    · exact ⟨n, x, y, start, stepped, isClose, by simp [settle, stepped, isClose]⟩
    · by_cases isClose : close y x = true
      · exact ⟨n, x, y, start, stepped, isClose, by simp [settle, stepped, isClose]⟩
      · have impossible' : ∀ y, ¬ P (n + 1 + cap) y := by
          rw [show n + 1 + cap = n + (cap + 1) by omega]
          exact impossible
        obtain ⟨m, z, w, known, last, lastClose, settled⟩ := inductionHypothesis next impossible'
        exact ⟨m, z, w, known, last, lastClose, by simp [settle, stepped, isClose, settled]⟩

end PegPool.Curve
