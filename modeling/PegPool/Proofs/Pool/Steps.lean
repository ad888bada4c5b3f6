import PegPool.Pool.Session
import PegPool.Proofs.Quote

/-!
# What a step of a run does

A step either fails and leaves the pool as it is, or it succeeds with the pool that comes after it
(`Step.after_cases`).  A step that asks for a quote succeeds without one, and then the pool stays, or
with one whose reserves replace those of the pool (`outcome_settle`).
-/

namespace PegPool

theorem Asset.forall_of_other {P : Asset → Prop} (asset : Asset) (first : P asset)
    (second : P asset.other) : ∀ any, P any := by
  intro any
  cases asset <;> cases any <;> assumption

namespace Pool

variable {cap : Nat} {p next : Pool}

/-- A quote leaves a pool as it was or replaces its reserves. -/
theorem outcome_settle {α : Type} {x : Traced QuoteError (Option α)} {reserves : α → Reserves}
    {answer : α → Answer} {a : Answer} (settled : (settle p x reserves answer).outcome = .ok (next, a)) :
    (next = p ∧ a = .nothing) ∨
      ∃ q, x.outcome = .ok (some q) ∧ next = { p with reserves := reserves q } ∧ a = answer q := by
  simp only [settle, Traced.outcome_bind, Traced.outcome_mapError, bind_eq_ok, mapError_eq_ok] at settled
  obtain ⟨q, quoted, ended⟩ := settled
  cases q with
  | none =>
    cases ended
    exact .inl ⟨rfl, rfl⟩
  | some q =>
    cases ended
    exact .inr ⟨q, quoted, rfl, rfl⟩

/-- A step fails and changes nothing, or succeeds with the pool after it. -/
theorem Step.after_cases (cap : Nat) (p : Pool) (s : Step) :
    ((∃ e, (s.run cap p).outcome = .error e) ∧ s.after cap p = p) ∨
      ∃ a, (s.run cap p).outcome = .ok (s.after cap p, a) := by
  unfold Step.after
  cases ran : (s.run cap p).outcome with
  | error e => exact .inl ⟨⟨e, rfl⟩, rfl⟩
  | ok result => exact .inr ⟨result.2, rfl⟩

/-- The coefficient one at all times. -/
def steady : Ramp := ⟨1, 1, 0, 0, Int.le_refl 0⟩

end Pool

end PegPool
