import PegPool.Fees.Record
import PegPool.Quote
import PegPool.Ramp.Session

/-!
# A run of operations on a pool

A `Pool.Step` quotes an operation against the current pool, or changes its coefficient or its fees.
A quote that succeeds puts its reserves in place of the pool's (`Quote.Founding` its ramp as well);
an operation without a quote, and an error, change nothing. So a run is a fold (`Pool.run`).
-/

namespace PegPool.Pool

/-- Why a fee schedule cannot be read. -/
inductive FeesError where
  | field (error : FieldError)
  | record (error : Fees.RecordError)
deriving DecidableEq, Repr

def FeesError.message : FeesError → String
  | field error => error.message
  | record error => error.message

inductive Step where
  | found (policy : RampPolicy) (amp reserveA reserveB : Int)
  | swap (now amountIn minimum : Int) (direction : Direction)
  | deposit (now amountA amountB minimum : Int)
  | withdraw (burned minimumA minimumB : Int)
  | withdrawOne (now burned minimum : Int) (base : Asset)
  | ramp (step : Ramp.Step)
  /-- Another fee schedule, if it can be read. -/
  | fees (read : Except FeesError Fees)

inductive Answer where
  | nothing
  | founding (q : Quote.Founding)
  | swap (q : Quote.Swap)
  | deposit (q : Quote.Deposit)
  | withdrawal (q : Quote.Withdrawal)
  | oneWithdrawal (q : Quote.OneWithdrawal)
  | ramp (answer : Ramp.Answer)
  | fees (fees : Fees)
deriving DecidableEq, Repr

inductive StepError where
  | quote (error : QuoteError)
  | ramp (error : RampError)
  | fees (error : FeesError)
deriving DecidableEq, Repr

def StepError.message : StepError → String
  | quote error => error.message
  | ramp error => error.message
  | fees error => error.message

/-- The pool after a quote, and the answer; without a quote the pool stays. -/
def settle {α : Type} (p : Pool) (x : Traced QuoteError (Option α)) (reserves : α → Reserves)
    (answer : α → Answer) : Traced StepError (Pool × Answer) := do
  match ← x.mapError .quote with
  | none => return (p, .nothing)
  | some q => return ({ p with reserves := reserves q }, answer q)

/-- The pool after a step, and its answer. -/
def Step.run (cap : Nat) (p : Pool) : Step → Traced StepError (Pool × Answer)
  | found policy amp reserveA reserveB => do
      let q ← (Quote.found cap policy amp reserveA reserveB).mapError .quote
      return ({ p with ramp := q.ramp, reserves := q.reserves }, .founding q)
  | swap now amountIn minimum direction =>
      settle p (Quote.swap cap p now amountIn minimum direction) (·.newReserves) .swap
  | deposit now amountA amountB minimum =>
      settle p (Quote.deposit cap p now amountA amountB minimum) (·.newReserves) .deposit
  | withdraw burned minimumA minimumB =>
      settle p (Quote.withdraw p burned minimumA minimumB) (·.newReserves) .withdrawal
  | withdrawOne now burned minimum base =>
      settle p (Quote.withdrawOne cap p now burned minimum base) (·.newReserves) .oneWithdrawal
  | ramp step => do
      let (r, answer) ← (step.run p.ramp).mapError .ramp
      return ({ p with ramp := r }, .ramp answer)
  | fees read => do
      let f ← Traced.lift (read.mapError .fees)
      return ({ p with fees := f }, .fees f)

/-- The pool after a step; a step that fails changes nothing. -/
def Step.after (cap : Nat) (p : Pool) (s : Step) : Pool :=
  match (s.run cap p).outcome with
  | .ok (next, _) => next
  | .error _ => p

def run (cap : Nat) (p : Pool) (steps : List Step) : Pool :=
  steps.foldl (Step.after cap) p

end PegPool.Pool
