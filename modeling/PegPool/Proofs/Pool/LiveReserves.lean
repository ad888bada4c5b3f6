import PegPool.Proofs.Exchange.Liquidity
import PegPool.Proofs.Exchange.Swap
import PegPool.Proofs.Pool.Steps

/-!
# Both reserves of a live pool

A pool with pool tokens that lost one reserve could not be priced any more.  Under a schedule without
a rate above one no quote takes the last unit of a reserve (`Quote.swap_live` and its siblings), with
one exception: a withdrawal in one asset charges the unit that it withholds as a trade fee, and an
administrator who gets all of the trade fee takes that unit too.  So the reserves of every run are
safe exactly if some of the trade fee stays in the pool, or some rate cannot be charged at all
(`live_iff_keepsTradeFee`).
-/

namespace PegPool

/-- A pool that gave out pool tokens holds both assets. -/
def Reserves.Live (r : Reserves) : Prop :=
  0 < r.supply.val → ∀ asset, 1 ≤ (r.get asset).val

/-- The administrator does not get all of a trade fee, or no withdrawal in one asset can be priced for
lack of a denominator. -/
def Fees.KeepsTradeFee (f : Fees) : Prop :=
  f.adminTrade.numerator.val < f.adminTrade.denominator.val ∨ f.adminTrade.denominator.val = 0 ∨
    f.adminWithdraw.denominator.val = 0 ∨ f.trade.denominator.val = 0 ∨
    f.withdraw.denominator.val = 0

namespace Quote

variable {cap : Nat} {pool : Pool} {now minimum : Int}

theorem found_live {policy : RampPolicy} {amp reserveA reserveB : Int} {q : Founding}
    (quoted : (found cap policy amp reserveA reserveB).outcome = .ok q) : q.reserves.Live := by
  obtain ⟨⟨aNonzero, bNonzero⟩, isA, isB⟩ := found_spec quoted
  intro _
  refine Asset.forall_of_other .a ?_ ?_
  · show 1 ≤ q.reserves.a.val
    omega
  · show 1 ≤ q.reserves.b.val
    omega

theorem swap_live {amountIn : Int} {direction : Direction} {q : Swap} (capPos : 1 ≤ cap)
    (legal : pool.fees.AtMostOne)
    (quoted : (swap cap pool now amountIn minimum direction).outcome = .ok (some q)) :
    q.newReserves.Live := by
  obtain ⟨swapped, isSource, isDestination, -⟩ := swap_spec quoted
  obtain ⟨d, y, priced⟩ := Exchange.exists_pricedSwap swapped
  obtain ⟨⟨newSourcePos, -⟩, -⟩ := Curve.otherAmount_spec capPos priced.solved
  have adminLe := Rate.share_le legal.adminTrade priced.adminFee
  have newDestination := priced.isNewDestination
  -- at most the fee goes to the administrator, so the unit that is withheld stays
  intro _
  refine Asset.forall_of_other direction.source ?_ ?_
  · omega
  · show 1 ≤ (q.newReserves.get direction.destination).val
    omega

theorem deposit_live {amountA amountB : Int} {q : Deposit} (live : pool.reserves.Live)
    (quoted : (deposit cap pool now amountA amountB minimum).outcome = .ok (some q)) :
    q.newReserves.Live := by
  obtain ⟨supplyPos, priced, isA, isB, -⟩ := deposit_spec quoted
  obtain ⟨aNonneg, bNonneg⟩ := Exchange.nonneg_of_mintForDeposit priced
  have aLive : 1 ≤ pool.reserves.a.val := live supplyPos .a
  have bLive : 1 ≤ pool.reserves.b.val := live supplyPos .b
  intro _
  refine Asset.forall_of_other .a ?_ ?_
  · show 1 ≤ q.newReserves.a.val
    omega
  · show 1 ≤ q.newReserves.b.val
    omega

theorem withdraw_live {burned minimumA minimumB : Int} {q : Withdrawal}
    (legal : pool.fees.AtMostOne) (live : pool.reserves.Live)
    (quoted : (withdraw pool burned minimumA minimumB).outcome = .ok (some q)) :
    q.newReserves.Live := by
  obtain ⟨⟨supplyPos, -⟩, priced, isReserve, isSupply⟩ := withdraw_spec quoted
  intro remaining asset
  obtain ⟨isShare, -⟩ := Exchange.withdrawShare_spec (priced asset)
  have adminLe := Exchange.withdrawShare_adminFee_le legal.admin (priced asset)
  have reserve := isReserve asset
  have reservePos := live supplyPos asset
  have less := mulDiv_lt isShare (by omega) (by omega)
  omega

theorem withdrawOne_live {burned : Int} {base : Asset} {q : OneWithdrawal}
    (legal : pool.fees.AtMostOne) (keeps : pool.fees.KeepsTradeFee) (live : pool.reserves.Live)
    (quoted : (withdrawOne cap pool now burned minimum base).outcome = .ok (some q)) :
    q.newReserves.Live := by
  obtain ⟨⟨supplyPos, -⟩, w, adminTrade, adminWithdraw, priced, charged, isDy, chargedTrade,
    chargedWithdraw, isAdminFee, isBase, sameOther, -⟩ := withdrawOne_spec quoted
  obtain ⟨tradePos, adjustedY, baseFee, newY, left, split⟩ := Exchange.withdrawOne_spec priced
  obtain ⟨-, -, ⟨withdrawPos, -⟩, -⟩ := mulDiv_eq_ok.mp charged
  obtain ⟨-, -, ⟨adminTradePos, -⟩, -⟩ := mulDiv_eq_ok.mp chargedTrade
  obtain ⟨-, -, ⟨adminWithdrawPos, -⟩, -⟩ := mulDiv_eq_ok.mp chargedWithdraw
  have less : pool.fees.adminTrade.numerator.val < pool.fees.adminTrade.denominator.val := by
    unfold Fees.KeepsTradeFee at keeps
    omega
  have withdrawLe := Rate.share_le legal.adminWithdraw chargedWithdraw
  have tradeLe := Rate.share_le legal.adminTrade chargedTrade
  intro _
  refine Asset.forall_of_other base ?_ ?_
  · by_cases free : w.fee = 0
    · omega
    · have tradeLt := Rate.share_lt less chargedTrade (by omega)
      omega
  · rw [sameOther]
    exact live supplyPos base.other

end Quote

namespace Pool

variable {cap : Nat} {p next : Pool}

/-- Beside a change of the schedule every step keeps a live pool live. -/
theorem Step.run_live {s : Step} {a : Answer} (capPos : 1 ≤ cap) (legal : p.fees.AtMostOne)
    (keeps : p.fees.KeepsTradeFee) (live : p.reserves.Live) (sameFees : ∀ read, s ≠ .fees read)
    (ran : (s.run cap p).outcome = .ok (next, a)) :
    next.fees = p.fees ∧ next.reserves.Live := by
  cases s with
  | found policy amp reserveA reserveB =>
    simp only [run, Traced.outcome_bind, Traced.outcome_mapError, bind_eq_ok, mapError_eq_ok] at ran
    obtain ⟨q, quoted, ended⟩ := ran
    cases ended
    exact ⟨rfl, Quote.found_live quoted⟩
  | swap now amountIn minimum direction =>
    obtain ⟨rfl, -⟩ | ⟨q, quoted, rfl, -⟩ := outcome_settle ran
    · exact ⟨rfl, live⟩
    · exact ⟨rfl, Quote.swap_live capPos legal quoted⟩
  | deposit now amountA amountB minimum =>
    obtain ⟨rfl, -⟩ | ⟨q, quoted, rfl, -⟩ := outcome_settle ran
    · exact ⟨rfl, live⟩
    · exact ⟨rfl, Quote.deposit_live live quoted⟩
  | withdraw burned minimumA minimumB =>
    obtain ⟨rfl, -⟩ | ⟨q, quoted, rfl, -⟩ := outcome_settle ran
    · exact ⟨rfl, live⟩
    · exact ⟨rfl, Quote.withdraw_live legal live quoted⟩
  | withdrawOne now burned minimum base =>
    obtain ⟨rfl, -⟩ | ⟨q, quoted, rfl, -⟩ := outcome_settle ran
    · exact ⟨rfl, live⟩
    · exact ⟨rfl, Quote.withdrawOne_live legal keeps live quoted⟩
  | ramp step =>
    simp only [run, Traced.outcome_bind, Traced.outcome_mapError, bind_eq_ok, mapError_eq_ok] at ran
    obtain ⟨⟨r, answer⟩, -, ended⟩ := ran
    cases ended
    exact ⟨rfl, live⟩
  | fees read => exact absurd rfl (sameFees read)

theorem run_live (capPos : 1 ≤ cap) {steps : List Step} (legal : p.fees.AtMostOne)
    (keeps : p.fees.KeepsTradeFee) (live : p.reserves.Live)
    (sameFees : ∀ s ∈ steps, ∀ read, s ≠ .fees read) : (run cap p steps).reserves.Live := by
  induction steps generalizing p with
  | nil => exact live
  | cons s steps inductionHypothesis =>
    have stays : (s.after cap p).fees = p.fees ∧ (s.after cap p).reserves.Live := by
      obtain ⟨-, same⟩ | ⟨a, ran⟩ := s.after_cases cap p
      · rw [same]
        exact ⟨rfl, live⟩
      · exact Step.run_live capPos legal keeps live (sameFees s (by simp)) ran
    obtain ⟨kept, live⟩ := stays
    have rest : ∀ t ∈ steps, ∀ read, t ≠ .fees read := by
      intro t member
      exact sameFees t (by simp [member])
    exact inductionHypothesis (by rwa [kept]) (by rwa [kept]) live rest

/-! ## The exception -/

/-- The pool of one unit of each asset, with its two pool tokens. -/
def ones : Reserves := ⟨.one, .one, .nearest 2⟩

theorem found_ones : (Quote.found Curve.defaultCap {} 1 1 1).outcome =
    .ok ⟨steady, 2, ones⟩ := rfl

/-- An administrator who gets all of the trade fee takes the last unit of a reserve. -/
theorem withdrawOne_of_ones {fees : Fees} (legal : fees.AtMostOne) (takes : ¬ fees.KeepsTradeFee) :
    (Quote.withdrawOne Curve.defaultCap ⟨steady, fees, ones⟩ 0 1 0 .a).outcome =
      .ok (some ⟨.a, 1, 0, 1, 0, 1, ⟨.zero, .one, .one⟩⟩) := by
  have adminTradeLe : fees.adminTrade.numerator.val ≤ fees.adminTrade.denominator.val :=
    legal.adminTrade
  unfold Fees.KeepsTradeFee at takes
  have priced := Exchange.withdrawOne_of_ones legal.trade (by omega)
  have taken := Rate.share_eq_self (r := fees.adminTrade) (n := 1) (by omega) (by omega) (by decide)
  have withdrawFree := Rate.share_zero (r := fees.withdraw) (by omega)
  have adminWithdrawFree := Rate.share_zero (r := fees.adminWithdraw) (by omega)
  simp only [Quote.withdrawOne, Traced.outcome_bind, Traced.outcome_ite, Traced.outcome_pure]
  rw [if_neg (by decide)]
  simp only [bind_eq_ok, Quote.outcome_requireBurnable, Quote.outcome_attempt, Quote.outcome_compute,
    Quote.outcome_store, Reserves.set_eq_ok, Reserves.setSupply_eq_ok, Word.ofInt_eq_ok,
    Word.add_eq_ok, Word.sub_eq_ok, Word.narrow_eq_ok, pure_eq_ok, Except.ok.injEq]
  let none : Word := .zero
  let one : Word := ⟨1, by decide⟩
  let two : Word := ⟨2, by decide⟩
  refine ⟨(), by decide, _, priced, _, ⟨0, withdrawFree, none, rfl, none, rfl, rfl⟩, (), rfl, _,
    ⟨1, taken, 0, adminWithdrawFree, one, rfl, one, rfl, 1, ⟨rfl, by decide⟩, one, rfl, one, rfl, none,
      rfl, two, rfl, one, rfl, rfl⟩, (), rfl, ⟨.zero, .one, ⟨2, by decide⟩⟩, ⟨rfl, rfl, rfl⟩,
    ⟨.zero, .one, .one⟩, ⟨?_, rfl⟩, rfl⟩
  intro asset
  cases asset <;> rfl

theorem run_of_ones {fees : Fees} (legal : fees.AtMostOne) (takes : ¬ fees.KeepsTradeFee) :
    ¬ (run Curve.defaultCap ⟨steady, fees, ones⟩
      [.withdrawOne 0 1 0 .a]).reserves.Live := by
  have quoted := withdrawOne_of_ones legal takes
  simp only [run, List.foldl, Step.after, Step.run, settle, Traced.outcome_bind,
    Traced.outcome_mapError, quoted, mapError_ok, ok_bind, Traced.outcome_pure]
  intro live
  exact absurd (live (by decide) .a) (by decide)

/-- Under a schedule without a rate above one, the runs of a pool keep both reserves exactly if the
administrator does not get all of a trade fee that can be charged. -/
theorem live_iff_keepsTradeFee (fees : Fees) (legal : fees.AtMostOne) :
    (∀ (policy : RampPolicy) (amp reserveA reserveB : Int) (q : Quote.Founding) (ramp : Ramp)
      (steps : List Step),
      (Quote.found Curve.defaultCap policy amp reserveA reserveB).outcome = .ok q →
      (∀ s ∈ steps, ∀ read, s ≠ .fees read) →
      (run Curve.defaultCap ⟨ramp, fees, q.reserves⟩ steps).reserves.Live) ↔ fees.KeepsTradeFee := by
  constructor
  · intro always
    by_contra takes
    exact run_of_ones legal takes (always {} 1 1 1 _ _ _ found_ones (by simp))
  · intro keeps policy amp reserveA reserveB q ramp steps quoted sameFees
    exact run_live (by decide) legal keeps (Quote.found_live quoted) sameFees

theorem live_of_free : (run Curve.defaultCap ⟨steady, .free, ones⟩
    [.withdrawOne 0 1 0 .a]).reserves.Live :=
  (live_iff_keepsTradeFee .free ⟨by decide, by decide, by decide, by decide⟩).mpr (.inl (by decide))
    {} 1 1 1 _ _ _ found_ones (by simp)

/-- A schedule that charges nothing, and of that the administrator gets all of the trade fee. -/
def adminTakesTradeFee : Fees :=
  { Fees.free with adminTrade := ⟨.one, .one⟩ }

/-- Half of the tokens of a pool of ones leaves a live pool without the first asset. -/
theorem live_pool_loses_reserve : adminTakesTradeFee.AtMostOne ∧ ∃ q,
    (Quote.found Curve.defaultCap {} 1 1 1).outcome = .ok q ∧
      ¬ (run Curve.defaultCap ⟨q.ramp, adminTakesTradeFee, q.reserves⟩
        [.withdrawOne 0 1 0 .a]).reserves.Live := by
  have legal : adminTakesTradeFee.AtMostOne := ⟨by decide, by decide, by decide, by decide⟩
  exact ⟨legal, _, found_ones, run_of_ones legal (by unfold Fees.KeepsTradeFee; decide)⟩

end Pool

end PegPool
