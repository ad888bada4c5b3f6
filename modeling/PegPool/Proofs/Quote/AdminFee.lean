import PegPool.Proofs.Quote.Ending

/-!
# The administrator's part of a fee

What a quote says of a fee is how much of it goes to the administrator; the rest stays in the pool.
That is a part of the fee under a schedule whose two shares are at most one (`swap_adminFee_le` and its
siblings), but a schedule may hold any shares, and nothing in a quote looks at them again.  The
smallest share above one already gives the administrator more than the fee
(`adminWithinFee_iff_no_excess`).
-/

namespace PegPool.Quote

variable {cap : Nat} {pool : Pool} {now minimum : Int}

/-! ## Shares of at most one -/

theorem swap_adminFee_le {amountIn : Int} {direction : Direction} {q : Swap}
    (legal : pool.fees.adminTrade.AtMostOne)
    (quoted : (swap cap pool now amountIn minimum direction).outcome = .ok (some q)) :
    q.amounts.adminFee ≤ q.amounts.fee := by
  obtain ⟨swapped, -⟩ := swap_spec quoted
  obtain ⟨d, y, priced⟩ := Exchange.exists_pricedSwap swapped
  exact Int.ofNat_le.mp (Rate.share_le legal priced.adminFee)

theorem withdraw_adminFee_le {burned minimumA minimumB : Int} {q : Withdrawal}
    (admin : pool.fees.AdminAtMostOne)
    (quoted : (withdraw pool burned minimumA minimumB).outcome = .ok (some q)) (asset : Asset) :
    (q.share asset).adminFee ≤ (q.share asset).fee := by
  obtain ⟨-, priced, -⟩ := withdraw_spec quoted
  exact Exchange.withdrawShare_adminFee_le admin (priced asset)

theorem withdrawOne_adminFee_le {burned : Int} {base : Asset} {q : OneWithdrawal}
    (admin : pool.fees.AdminAtMostOne)
    (quoted : (withdrawOne cap pool now burned minimum base).outcome = .ok (some q)) :
    q.adminFee ≤ q.tradeFee + q.withdrawFee := by
  obtain ⟨x, ending⟩ := exists_withdrawOneEnding cap pool now burned minimum base
  rw [ending.outcome] at quoted
  cases ending with
  | withdrawn nonzero burnable charged enough isAdminFee =>
    cases quoted
    obtain ⟨adminTrade, adminWithdraw, chargedTrade, chargedWithdraw, rfl⟩ := isAdminFee
    have tradeLe := Rate.share_le admin.trade chargedTrade
    have withdrawLe := Rate.share_le admin.withdraw chargedWithdraw
    dsimp only
    omega
  | _ => cases quoted

/-! ## Shares above one -/

/-- In every quote the administrator gets at most the fee of which that is the share. -/
structure AdminWithinFee (cap : Nat) (pool : Pool) : Prop where
  swap : ∀ now amountIn minimum direction q,
    (swap cap pool now amountIn minimum direction).outcome = .ok (some q) →
    q.amounts.adminFee ≤ q.amounts.fee
  withdraw : ∀ burned minimumA minimumB q,
    (withdraw pool burned minimumA minimumB).outcome = .ok (some q) →
    ∀ asset, (q.share asset).adminFee ≤ (q.share asset).fee
  withdrawOne : ∀ now burned minimum base q,
    (withdrawOne cap pool now burned minimum base).outcome = .ok (some q) →
    q.adminFee ≤ q.tradeFee + q.withdrawFee

/-- The fee on a swap is half of what it pays out, and the administrator's share of it is the double. -/
def doublingTrade : Pool where
  ramp := Pool.steady
  fees := { Fees.free with adminTrade := ⟨.nearest 2, .one⟩, trade := ⟨.one, .nearest 2⟩ }
  reserves := ⟨.nearest 100, .nearest 100, .nearest 200⟩

/-- The fee on a withdrawal is half of what it pays out, and the administrator's share of it is the
double. -/
def doublingWithdraw : Pool where
  ramp := Pool.steady
  fees :=
    { Fees.free with adminWithdraw := ⟨.nearest 2, .one⟩, withdraw := ⟨.one, .nearest 2⟩ }
  reserves := ⟨.nearest 100, .nearest 100, .nearest 200⟩

theorem swap_of_doublingTrade : (swap Curve.defaultCap doublingTrade 0 20 0 .aToB).outcome =
    .ok (some ⟨.aToB, 20, ⟨120, 73, 9, 18, 9⟩,
      ⟨.nearest 120, .nearest 73, .nearest 200⟩⟩) := rfl

theorem withdraw_of_doublingWithdraw : (withdraw doublingWithdraw 100 0 0).outcome =
    .ok (some ⟨100, ⟨25, 25, 50⟩, ⟨25, 25, 50⟩,
      ⟨.nearest 25, .nearest 25, .nearest 100⟩⟩) := rfl

/-- Let the numerators of the administrator's two shares exceed their denominators by at most so much.
Then the administrator gets at most the fee in every quote of every pool exactly if neither exceeds it
at all. -/
theorem adminWithinFee_iff_no_excess (tradeExcess withdrawExcess : Nat) :
    (∀ (cap : Nat) (pool : Pool),
      pool.fees.adminTrade.numerator.val ≤ pool.fees.adminTrade.denominator.val + tradeExcess →
      pool.fees.adminWithdraw.numerator.val ≤
        pool.fees.adminWithdraw.denominator.val + withdrawExcess →
      AdminWithinFee cap pool) ↔ tradeExcess = 0 ∧ withdrawExcess = 0 := by
  constructor
  · intro always
    constructor
    · by_contra excess
      have within := always Curve.defaultCap doublingTrade (show 2 ≤ 1 + tradeExcess by omega)
        (Nat.zero_le _)
      exact absurd (within.swap _ _ _ _ _ swap_of_doublingTrade) (by decide)
    · by_contra excess
      have within := always Curve.defaultCap doublingWithdraw (Nat.zero_le _)
        (show 2 ≤ 1 + withdrawExcess by omega)
      exact absurd (within.withdraw _ _ _ _ withdraw_of_doublingWithdraw .a) (by decide)
  · rintro ⟨rfl, rfl⟩ cap pool trade withdraw
    have admin : pool.fees.AdminAtMostOne := ⟨trade, withdraw⟩
    constructor
    · intro now amountIn minimum direction q quoted
      exact swap_adminFee_le admin.trade quoted
    · intro burned minimumA minimumB q quoted
      exact withdraw_adminFee_le admin quoted
    · intro now burned minimum base q quoted
      exact withdrawOne_adminFee_le admin quoted

/-- Twenty units into a pool of a hundred pay nine, with a fee of nine of which the administrator gets
eighteen. -/
theorem admin_gets_double : ∃ q,
    (swap Curve.defaultCap doublingTrade 0 20 0 .aToB).outcome = .ok (some q) ∧
      q.amounts.fee < q.amounts.adminFee :=
  ⟨_, swap_of_doublingTrade, by decide⟩

end PegPool.Quote
