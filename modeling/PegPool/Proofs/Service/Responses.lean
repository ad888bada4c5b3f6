import PegPool.Proofs.Quote.Ending
import PegPool.Proofs.Service.PoolBody

/-!
# What a response shows

`Priced.shown` says field by field what a caller is shown of a quote.  A quote whose amounts fit in 64
bits (`Priced.Fits`) is written that way (`Priced.Fits.written`), and the response is one that the
reader of its kind accepts (`Priced.Fits.accepted`).
-/

namespace PegPool.Service

open Checked

def decimal (z : Int) : Json :=
  .str (toString z)

theorem naturalJson_toNat {z : Int} (nonneg : 0 ≤ z) : naturalJson z.toNat = decimal z := by
  obtain ⟨n, rfl⟩ := Int.eq_ofNat_of_zero_le nonneg
  rfl

inductive Priced where
  | founding (q : Quote.Founding)
  | swap (q : Quote.Swap)
  | deposit (q : Quote.Deposit)
  | withdrawal (q : Quote.Withdrawal)
  | oneWithdrawal (q : Quote.OneWithdrawal)

/-! ## The fields -/

def shownReserves (r : Reserves) : Json :=
  .obj [("reserveA", decimal r.a.val), ("reserveB", decimal r.b.val),
    ("poolTokenSupply", decimal r.supply.val)]

def shownRamp (r : Ramp) : Json :=
  .obj [("initialAmpFactor", (r.initial : Int)), ("targetAmpFactor", (r.target : Int)),
    ("startRampTs", r.start), ("stopRampTs", r.stop)]

def shownShare (s : Exchange.ShareAmounts) : Json :=
  .obj [("amount", decimal s.amount), ("fee", decimal s.fee), ("adminFee", decimal s.adminFee)]

def Priced.shown : Priced → Json
  | founding q => .obj [("amp", shownRamp q.ramp), ("mintAmount", decimal q.minted),
      ("reserves", shownReserves q.reserves)]
  | swap q => .obj [("direction", q.direction.label), ("amountIn", decimal q.amountIn),
      ("amountSwapped", decimal q.amounts.amountSwapped), ("fee", decimal q.amounts.fee),
      ("adminFee", decimal q.amounts.adminFee), ("reserves", shownReserves q.newReserves)]
  | deposit q => .obj [("mintAmount", decimal q.minted), ("reserves", shownReserves q.newReserves)]
  | withdrawal q => .obj [("poolTokenAmount", decimal q.burned), ("tokenA", shownShare q.a),
      ("tokenB", shownShare q.b), ("reserves", shownReserves q.newReserves)]
  | oneWithdrawal q => .obj [("base", q.base.label), ("poolTokenAmount", decimal q.burned),
      ("amount", decimal q.amount), ("tradeFee", decimal q.tradeFee),
      ("withdrawFee", decimal q.withdrawFee), ("adminFee", decimal q.adminFee),
      ("reserves", shownReserves q.newReserves)]

def Priced.written : Priced → Json
  | founding q => (FoundResponse.ofQuote q).toJson
  | swap q => (SwapResponse.ofQuote q).toJson
  | deposit q => (DepositResponse.ofQuote q).toJson
  | withdrawal q => (WithdrawResponse.ofQuote q).toJson
  | oneWithdrawal q => (WithdrawOneResponse.ofQuote q).toJson

/-- The reader of the response takes what is shown. -/
def Priced.Accepted (x : Priced) : Prop :=
  match x with
  | founding _ => ∃ a, Reads FoundResponse.read x.shown a
  | swap _ => ∃ a, Reads SwapResponse.read x.shown a
  | deposit _ => ∃ a, Reads DepositResponse.read x.shown a
  | withdrawal _ => ∃ a, Reads WithdrawResponse.read x.shown a
  | oneWithdrawal _ => ∃ a, Reads WithdrawOneResponse.read x.shown a

/-! ## Amounts that fit -/

structure ShareFits (s : Exchange.ShareAmounts) : Prop where
  amount : s.amount < 2 ^ 64
  fee : s.fee < 2 ^ 64
  adminFee : s.adminFee < 2 ^ 64

/-- The amounts of the quote fit in 64 bits, and its coefficients are within the bounds of a request. -/
inductive Priced.Fits : Priced → Prop where
  | founding (q : Quote.Founding) (ramp : (RampBody.ofRamp q.ramp).Valid) (minted : q.minted < 2 ^ 64) :
      (Priced.founding q).Fits
  | swap (q : Quote.Swap) (amountIn : 0 ≤ q.amountIn ∧ q.amountIn < 2 ^ 64)
      (amountSwapped : q.amounts.amountSwapped < 2 ^ 64) (fee : q.amounts.fee < 2 ^ 64)
      (adminFee : q.amounts.adminFee < 2 ^ 64) : (Priced.swap q).Fits
  | deposit (q : Quote.Deposit) (minted : q.minted < 2 ^ 64) : (Priced.deposit q).Fits
  | withdrawal (q : Quote.Withdrawal) (burned : 0 ≤ q.burned ∧ q.burned < 2 ^ 64) (a : ShareFits q.a)
      (b : ShareFits q.b) : (Priced.withdrawal q).Fits
  | oneWithdrawal (q : Quote.OneWithdrawal) (burned : 0 ≤ q.burned ∧ q.burned < 2 ^ 64)
      (amount : q.amount < 2 ^ 64) (tradeFee : q.tradeFee < 2 ^ 64) (withdrawFee : q.withdrawFee < 2 ^ 64)
      (adminFee : q.adminFee < 2 ^ 64) : (Priced.oneWithdrawal q).Fits

theorem Priced.Fits.written {x : Priced} (fits : x.Fits) : x.written = x.shown := by
  cases fits with
  | founding q ramp minted => rfl
  | swap q amountIn =>
    obtain ⟨direction, paid, amounts, next⟩ := q
    obtain ⟨n, rfl⟩ := Int.eq_ofNat_of_zero_le amountIn.1
    rfl
  | deposit q minted => rfl
  | withdrawal q burned =>
    obtain ⟨tokens, a, b, next⟩ := q
    obtain ⟨n, rfl⟩ := Int.eq_ofNat_of_zero_le burned.1
    rfl
  | oneWithdrawal q burned =>
    obtain ⟨base, tokens, amount, tradeFee, withdrawFee, adminFee, next⟩ := q
    obtain ⟨n, rfl⟩ := Int.eq_ofNat_of_zero_le burned.1
    rfl

/-- An object that has the three fields, each in either spelling, is read. -/
theorem ReservesBody.read_of_found {p : Place} {members : Json.Members} {r : Reserves} {a b s : String}
    (isA : Record.find? ⟨p, members⟩ aKey = some (a, r.a.toJson))
    (isB : Record.find? ⟨p, members⟩ bKey = some (b, r.b.toJson))
    (isSupply : Record.find? ⟨p, members⟩ supplyKey = some (s, r.supply.toJson)) :
    read p (.obj members) = .good r := by
  refine good_seq (good_seq (good_map Reserves.mk ?_) ?_) ?_
  · exact (reads_amount r.a).required isA
  · exact (reads_amount r.b).required isB
  · exact (reads_amount r.supply).optional isSupply

theorem reads_reserves (r : Reserves) : Reads ReservesBody.read (shownReserves r) r :=
  fun _ => ReservesBody.read_of_found rfl rfl rfl

theorem reads_share {s : Exchange.ShareAmounts} (fits : ShareFits s) :
    Reads ShareBody.read (shownShare s) s := by
  intro p
  refine good_seq (good_seq (good_map Exchange.ShareAmounts.mk ?_) ?_) ?_
  · exact (reads_natural fits.amount).required rfl
  · exact (reads_natural fits.fee).required rfl
  · exact (reads_natural fits.adminFee).required rfl

theorem reads_decimal {z : Int} (nonneg : 0 ≤ z) (fits : z < 2 ^ 64) :
    Reads natural (decimal z) z.toNat := by
  rw [← naturalJson_toNat nonneg]
  exact reads_natural (by omega)

theorem Priced.Fits.accepted {x : Priced} (fits : x.Fits) : x.Accepted := by
  cases fits with
  | founding q ramp minted =>
    refine ⟨.ofQuote q, fun p => ?_⟩
    refine good_seq (good_seq (good_map FoundResponse.mk ?_) ?_) ?_
    · exact ramp.reads_toJson.required rfl
    · exact (reads_natural minted).required rfl
    · exact (reads_reserves q.reserves).required rfl
  | swap q amountIn amountSwapped fee adminFee =>
    refine ⟨.ofQuote q, fun p => ?_⟩
    refine good_seq (good_seq (good_seq (good_seq (good_seq (good_map SwapResponse.mk ?_) ?_) ?_) ?_) ?_) ?_
    · exact (reads_direction q.direction).required rfl
    · exact (reads_decimal amountIn.1 amountIn.2).required rfl
    · exact (reads_natural amountSwapped).required rfl
    · exact (reads_natural fee).required rfl
    · exact (reads_natural adminFee).required rfl
    · exact (reads_reserves q.newReserves).required rfl
  | deposit q minted =>
    refine ⟨.ofQuote q, fun p => ?_⟩
    refine good_seq (good_map DepositResponse.mk ?_) ?_
    · exact (reads_natural minted).required rfl
    · exact (reads_reserves q.newReserves).required rfl
  | withdrawal q burned a b =>
    refine ⟨.ofQuote q, fun p => ?_⟩
    refine good_seq (good_seq (good_seq (good_map WithdrawResponse.mk ?_) ?_) ?_) ?_
    · exact (reads_decimal burned.1 burned.2).required rfl
    · exact (reads_share a).required rfl
    · exact (reads_share b).required rfl
    · exact (reads_reserves q.newReserves).required rfl
  | oneWithdrawal q burned amount tradeFee withdrawFee adminFee =>
    refine ⟨.ofQuote q, fun p => ?_⟩
    refine good_seq (good_seq (good_seq (good_seq (good_seq (good_seq
      (good_map WithdrawOneResponse.mk ?_) ?_) ?_) ?_) ?_) ?_) ?_
    · exact (reads_asset q.base).required rfl
    · exact (reads_decimal burned.1 burned.2).required rfl
    · exact (reads_natural amount).required rfl
    · exact (reads_natural tradeFee).required rfl
    · exact (reads_natural withdrawFee).required rfl
    · exact (reads_natural adminFee).required rfl
    · exact (reads_reserves q.newReserves).required rfl

end PegPool.Service
