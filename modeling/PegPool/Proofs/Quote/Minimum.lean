import PegPool.Proofs.Quote.Ending

/-!
# What a minimum decides

A quote compares what it pays with the caller's minimum once, between pricing and storing.  The amounts
are calculated before that, and nothing after it looks at the minimum, so the minimum only decides
whether the quote goes on (`CutsOff`).

A withdrawal in both assets has two such comparisons, the one for the first asset before the other.
-/

namespace PegPool

variable {ε α β : Type}

theorem Traced.bind_of_ok {x : Traced ε α} {a : α} (value : x.outcome = .ok a)
    (f : α → Traced ε β) : x >>= f = ⟨x.events ++ (f a).events, (f a).outcome⟩ := by
  apply Traced.ext
  · rw [events_bind, value]
  · rw [outcome_bind, value, ok_bind]

namespace Quote

/-- A payout below a minimum is refused, with an event that tells of both after those before.  A minimum
that cannot be written is refused without naming it. -/
def refusal (before : List Event) (minimum payout : Int) : Traced QuoteError α :=
  ⟨before ++ [.slippageExceeded minimum payout],
    .error (if Text.isWritable minimum then .slippage minimum payout else .unwritable)⟩

/-- Asked with a minimum up to `payout` the quote is always `quoted`, events included.  Above it the
minimum is refused, after events that do not depend on it. -/
structure CutsOff (ask : Int → Traced QuoteError α) (quoted : Traced QuoteError α) (payout : Nat) :
    Prop where
  met : ∀ minimum, minimum ≤ (payout : Int) → ask minimum = quoted
  missed : ∃ before, ∀ minimum, (payout : Int) < minimum → ask minimum = refusal before minimum payout

theorem CutsOff.outcome_missed {ask : Int → Traced QuoteError α} {quoted : Traced QuoteError α}
    {payout : Nat} (cut : CutsOff ask quoted payout) {minimum : Int}
    (exceeds : (payout : Int) < minimum) (writable : Text.isWritable minimum = true) :
    (ask minimum).outcome = .error (.slippage minimum payout) := by
  obtain ⟨before, missed⟩ := cut.missed
  rw [missed minimum exceeds, refusal, if_pos writable]

/-- The comparison cuts off, and what follows it does not depend on the minimum. -/
theorem CutsOff.gate {minimum : Int} {payout : Nat} (enough : minimum ≤ payout)
    (rest : Traced QuoteError α) :
    CutsOff (fun m => requireAtLeast m payout >>= fun _ => rest)
      (requireAtLeast minimum payout >>= fun _ => rest) payout := by
  have passes : ∀ m, m ≤ (payout : Int) → requireAtLeast m payout = pure () := fun m atMost =>
    if_neg (by omega)
  have refuses : ∀ m, (payout : Int) < m → requireAtLeast m payout = refusal [] m payout := by
    intro m exceeds
    rw [requireAtLeast, if_pos exceeds, slippage_told exceeds]
    rfl
  constructor
  · intro m atMost
    rw [passes m atMost, passes minimum enough]
  · refine ⟨[], fun m exceeds => ?_⟩
    rw [refuses m exceeds]
    rfl

theorem CutsOff.bind {x : Traced QuoteError α} {a : α} {f : Int → α → Traced QuoteError β}
    {g : α → Traced QuoteError β} {payout : Nat} (value : x.outcome = .ok a)
    (rest : CutsOff (fun m => f m a) (g a) payout) :
    CutsOff (fun m => x >>= f m) (x >>= g) payout := by
  obtain ⟨before, missed⟩ := rest.missed
  constructor
  · intro m atMost
    have met : f m a = g a := rest.met m atMost
    rw [Traced.bind_of_ok value, Traced.bind_of_ok value, met]
  · refine ⟨x.events ++ before, fun m exceeds => ?_⟩
    have refused : f m a = refusal before m payout := missed m exceeds
    rw [Traced.bind_of_ok value, refused]
    simp only [refusal, List.append_assoc]

/-! ## The four quotes that take a minimum -/

variable {cap : Nat} {pool : Pool} {now minimum : Int}

theorem swap_cutsOff {amountIn : Int} {direction : Direction} {q : Swap}
    (quoted : (swap cap pool now amountIn minimum direction).outcome = .ok (some q)) :
    CutsOff (fun m => swap cap pool now amountIn m direction)
      (swap cap pool now amountIn minimum direction) q.amounts.amountSwapped := by
  obtain ⟨x, ending⟩ := exists_swapEnding cap pool now amountIn minimum direction
  cases ending.outcome.symm.trans quoted
  cases ending with
  | swapped nonzero priced enough isSource isDestination sameSupply =>
    simp only [swap, if_neg nonzero]
    exact .bind (outcome_attempt.mpr priced) (.gate enough _)

theorem deposit_cutsOff {amountA amountB : Int} {q : Deposit}
    (quoted : (deposit cap pool now amountA amountB minimum).outcome = .ok (some q)) :
    CutsOff (fun m => deposit cap pool now amountA amountB m)
      (deposit cap pool now amountA amountB minimum) q.minted := by
  obtain ⟨x, ending⟩ := exists_depositEnding cap pool now amountA amountB minimum
  cases ending.outcome.symm.trans quoted
  cases ending with
  | deposited nonzero supplyPos priced enough isA isB isSupply =>
    simp only [deposit, if_neg nonzero, if_neg supplyPos.ne']
    exact .bind (outcome_attempt.mpr priced) (.gate enough _)

theorem withdraw_cutsOff_a {burned minimumA minimumB : Int} {q : Withdrawal}
    (quoted : (withdraw pool burned minimumA minimumB).outcome = .ok (some q)) (other : Int) :
    CutsOff (fun m => withdraw pool burned m other) (withdraw pool burned minimumA other)
      q.a.amount := by
  obtain ⟨x, ending⟩ := exists_withdrawEnding pool burned minimumA minimumB
  cases ending.outcome.symm.trans quoted
  cases ending with
  | withdrawn nonzero burnable priced enoughA enoughB isA isB isSupply =>
    simp only [withdraw, if_neg nonzero]
    -- the comparison for asset B is part of what follows, whatever its minimum
    exact .bind (requireBurnable_ok burnable)
      (.bind (outcome_compute.mpr (withdrawBoth_eq_ok.mpr priced)) (.gate enoughA _))

theorem withdraw_cutsOff_b {burned minimumA minimumB : Int} {q : Withdrawal}
    (quoted : (withdraw pool burned minimumA minimumB).outcome = .ok (some q)) :
    CutsOff (fun m => withdraw pool burned minimumA m) (withdraw pool burned minimumA minimumB)
      q.b.amount := by
  obtain ⟨x, ending⟩ := exists_withdrawEnding pool burned minimumA minimumB
  cases ending.outcome.symm.trans quoted
  cases ending with
  | withdrawn nonzero burnable priced enoughA enoughB isA isB isSupply =>
    simp only [withdraw, if_neg nonzero]
    exact .bind (requireBurnable_ok burnable)
      (.bind (outcome_compute.mpr (withdrawBoth_eq_ok.mpr priced))
        (.bind (requireAtLeast_ok enoughA) (.gate enoughB _)))

theorem withdrawOne_cutsOff {burned : Int} {base : Asset} {q : OneWithdrawal}
    (quoted : (withdrawOne cap pool now burned minimum base).outcome = .ok (some q)) :
    CutsOff (fun m => withdrawOne cap pool now burned m base)
      (withdrawOne cap pool now burned minimum base) q.amount := by
  obtain ⟨x, ending⟩ := exists_withdrawOneEnding cap pool now burned minimum base
  cases ending.outcome.symm.trans quoted
  cases ending with
  | withdrawn nonzero burnable charged enough isAdminFee isBase sameOther isSupply =>
    simp only [withdrawOne, if_neg nonzero]
    exact .bind (requireBurnable_ok burnable) (.bind (outcome_attempt.mpr charged.priced)
      (.bind (outcome_compute.mpr charged.computed) (.gate enough _)))

/-- A minimum only cuts a quote off: the quote that one minimum gets is the same for every minimum up
to what it pays, and refused for every one above, with both numbers if they can be written.  Of a
withdrawal in both assets this holds of the minimum of asset A whatever the other one, and of the other
one where that is met. -/
theorem minimum_only_cuts_off (cap : Nat) (pool : Pool) (now : Int) :
    (∀ (amountIn minimum : Int) (direction : Direction) (q : Swap),
      (swap cap pool now amountIn minimum direction).outcome = .ok (some q) →
      CutsOff (fun m => swap cap pool now amountIn m direction)
        (swap cap pool now amountIn minimum direction) q.amounts.amountSwapped) ∧
    (∀ (amountA amountB minimum : Int) (q : Deposit),
      (deposit cap pool now amountA amountB minimum).outcome = .ok (some q) →
      CutsOff (fun m => deposit cap pool now amountA amountB m)
        (deposit cap pool now amountA amountB minimum) q.minted) ∧
    (∀ (burned minimumA minimumB : Int) (q : Withdrawal),
      (withdraw pool burned minimumA minimumB).outcome = .ok (some q) →
      (∀ other, CutsOff (fun m => withdraw pool burned m other) (withdraw pool burned minimumA other)
        q.a.amount) ∧
      CutsOff (fun m => withdraw pool burned minimumA m) (withdraw pool burned minimumA minimumB)
        q.b.amount) ∧
    (∀ (burned minimum : Int) (base : Asset) (q : OneWithdrawal),
      (withdrawOne cap pool now burned minimum base).outcome = .ok (some q) →
      CutsOff (fun m => withdrawOne cap pool now burned m base)
        (withdrawOne cap pool now burned minimum base) q.amount) := by
  refine ⟨?_, ?_, ?_, ?_⟩
  · intro amountIn minimum direction q quoted
    exact swap_cutsOff quoted
  · intro amountA amountB minimum q quoted
    exact deposit_cutsOff quoted
  · intro burned minimumA minimumB q quoted
    exact ⟨withdraw_cutsOff_a quoted, withdraw_cutsOff_b quoted⟩
  · intro burned minimum base q quoted
    exact withdrawOne_cutsOff quoted

def hundreds : Pool where
  ramp := Pool.steady
  fees := { Fees.free with trade := ⟨.nearest 4, .nearest 100⟩ }
  reserves := ⟨.nearest 100, .nearest 100, .nearest 200⟩

/-- The payouts of the pool of hundreds, as the largest minimums that are met: a swap of 60 pays 44, a
deposit of 30 and 20 mints 50, a burn of 101 pays 50 of both assets, and one of 100 pays 81 of asset B.
Of two minimums that are missed, the one of asset A is told of. -/
theorem minimum_only_cuts_off_of_hundreds :
    (swap Curve.defaultCap hundreds 0 60 44 .aToB = swap Curve.defaultCap hundreds 0 60 0 .aToB ∧
      (swap Curve.defaultCap hundreds 0 60 45 .aToB).outcome = .error (.slippage 45 44)) ∧
    (deposit Curve.defaultCap hundreds 0 30 20 50 = deposit Curve.defaultCap hundreds 0 30 20 0 ∧
      (deposit Curve.defaultCap hundreds 0 30 20 51).outcome = .error (.slippage 51 50)) ∧
    (withdraw hundreds 101 0 50 = withdraw hundreds 101 0 0 ∧
      (withdraw hundreds 101 51 52).outcome = .error (.slippage 51 50)) ∧
    (withdrawOne Curve.defaultCap hundreds 0 100 81 .b =
        withdrawOne Curve.defaultCap hundreds 0 100 0 .b ∧
      (withdrawOne Curve.defaultCap hundreds 0 100 82 .b).outcome = .error (.slippage 82 81)) := by
  obtain ⟨swapping, depositing, withdrawing, withdrawingOne⟩ :=
    minimum_only_cuts_off Curve.defaultCap hundreds 0
  have swapCut := swapping 60 0 .aToB
    ⟨.aToB, 60, ⟨160, 56, 44, 0, 1⟩, ⟨.nearest 160, .nearest 56, .nearest 200⟩⟩ rfl
  have depositCut := depositing 30 20 0 ⟨50, ⟨.nearest 130, .nearest 120, .nearest 250⟩⟩ rfl
  obtain ⟨cutA, cutB⟩ := withdrawing 101 0 0
    ⟨101, ⟨50, 0, 0⟩, ⟨50, 0, 0⟩, ⟨.nearest 50, .nearest 50, .nearest 99⟩⟩ rfl
  have oneCut := withdrawingOne 100 0 .b
    ⟨.b, 100, 81, 1, 0, 0, ⟨.nearest 100, .nearest 19, .nearest 100⟩⟩ rfl
  exact ⟨⟨swapCut.met 44 (by decide), swapCut.outcome_missed (by decide) (by decide +kernel)⟩,
    ⟨depositCut.met 50 (by decide), depositCut.outcome_missed (by decide) (by decide +kernel)⟩,
    ⟨cutB.met 50 (by decide), (cutA 52).outcome_missed (by decide) (by decide +kernel)⟩,
    ⟨oneCut.met 81 (by decide), oneCut.outcome_missed (by decide) (by decide +kernel)⟩⟩

/-- A minimum of 4301 digits misses the 44 that a swap of 60 pays, and the refusal cannot name it. -/
theorem long_minimum_is_not_told :
    ((swap Curve.defaultCap hundreds 0 60 44 .aToB).outcome.toOption.isSome = true) ∧
    ∀ payout, (swap Curve.defaultCap hundreds 0 60 (10 ^ 4300) .aToB).outcome ≠
      .error (.slippage (10 ^ 4300) payout) := by
  have refused : (swap Curve.defaultCap hundreds 0 60 (10 ^ 4300) .aToB).outcome = .error .unwritable := by
    decide +kernel
  refine ⟨by decide +kernel, ?_⟩
  intro payout told
  cases refused.symm.trans told

end Quote

end PegPool
