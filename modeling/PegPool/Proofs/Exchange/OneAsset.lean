import PegPool.Proofs.Exchange.Monotone
import PegPool.Proofs.Exchange.Liquidity

/-!
# Withdrawals in one asset

Pricing a burn for one asset solves the curve twice for the smaller invariant `d1`: beside the quote
reserve (`newY`) and beside the charged one.  `payout` is the calculation up to what is paid, and
`withdrawOne` only takes that from the uncharged payout to find the fee (`outcome_withdrawOne`).

The charged quote reserve is not larger, so the reserve beside it is not smaller, and the fee is at
least the charge on the base asset and the unit that is withheld (`oneAsset_fee_covers_charge`).  For the same reason no
schedule pays more than the one that charges nothing.

The fee stays in the pool beside `newY`, which is short of the exact reserve by less than two units.  So
a fee of two units keeps the invariant that is left to the other pool tokens
(`withdrawOne_keeps_invariant`).
-/

namespace PegPool

variable {fees : Fees} {n : Nat}

theorem Fees.nonneg_of_imbalanceFee {assets amount : Int}
    (charged : fees.imbalanceFee assets amount = .ok n) : 0 ≤ amount ∧ amount < 2 ^ 256 := by
  unfold imbalanceFee at charged
  split at charged
  · simp only [bind_eq_ok, throw_ne_ok, false_and, exists_false] at charged
  · simp only [bind_eq_ok] at charged
    obtain ⟨_, -, share⟩ := charged
    exact (mulDiv_eq_ok.mp share).1

theorem Fees.imbalanceFee_free {amount : Int} (nonneg : 0 ≤ amount) (fits : amount < 2 ^ 256) :
    Fees.free.imbalanceFee assetCount amount = .ok 0 := by
  have scaled : mulDiv (0 : Int) assetCount ((assetCount - 1) * 4 : Int) = .ok 0 := rfl
  have share : mulDiv amount (0 : Int) (1 : Int) = .ok 0 :=
    mulDiv_eq_ok.mpr ⟨⟨nonneg, fits⟩, by decide, by decide, by rw [mul_zero]; decide,
      by rw [mul_zero]; rfl, by decide⟩
  unfold imbalanceFee
  rw [if_neg (by decide)]
  exact bind_eq_ok.mpr ⟨0, scaled, share⟩

namespace Exchange

variable {cap : Nat} {amp burned supply base quote : Int} {w : Withdrawal}

/-! ## The calculation up to the fee -/

/-- The invariant that is left when the burned share of `d0` is gone. -/
def shrunk (burned supply : Int) (d0 : Nat) : Except Fault Nat := do
  let cut ← (← (← Word.ofInt burned).mul d0).div supply
  return (← (← Word.ofInt d0).sub cut).val

/-- What a reserve comes to if it shrinks as the invariant does. -/
def keptShare (reserve : Int) (d0 d1 : Nat) : Except Fault Nat := do
  (← (← (← Word.ofInt reserve).mul d1).div d0).narrow

theorem shrunk_spec {d0 d1 : Nat} (isShrunk : shrunk burned supply d0 = .ok d1) :
    supply ≠ 0 ∧ ∃ cut : Nat, (cut : Int) = (burned * d0).fdiv supply ∧ d0 = d1 + cut := by
  simp only [shrunk, bind_eq_ok, Word.ofInt_eq_ok, Word.mul_eq_ok, Word.div_eq_ok, Word.sub_eq_ok,
    pure_eq_ok] at isShrunk
  obtain ⟨tokens, isTokens, product, isProduct, cut, ⟨nonzero, isCut⟩, whole, isWhole, left, isLeft,
    rfl⟩ := isShrunk
  rw [isProduct, isTokens] at isCut
  exact ⟨nonzero, cut.val, isCut, by omega⟩

theorem shrunk_le {d0 d1 : Nat} (isShrunk : shrunk burned supply d0 = .ok d1) : d1 ≤ d0 := by
  obtain ⟨-, cut, -, isLeft⟩ := shrunk_spec isShrunk
  omega

theorem keptShare_lt {reserve : Int} {d0 d1 kept : Nat}
    (shares : keptShare reserve d0 d1 = .ok kept) : kept < 2 ^ 64 := by
  simp only [keptShare, bind_eq_ok, Word.narrow_eq_ok] at shares
  obtain ⟨_, -, _, -, share, -, rfl, fits⟩ := shares
  exact fits

/-- A burn that is priced up to what it pays. -/
structure Payout where
  /-- The base reserve that keeps the smaller invariant. -/
  newY : Nat
  /-- How far the base reserve falls below its share of the smaller invariant. -/
  baseMove : Nat
  /-- What is charged on that. -/
  baseFee : Nat
  dy : Nat
deriving DecidableEq, Repr

def payout (cap : Nat) (fees : Fees) (amp : Int) (burned supply base quote : Int) :
    Traced Fault Payout := do
  let d0 ← Curve.invariant cap base quote amp
  let d1 ← shrunk burned supply d0
  let newY ← Curve.otherAmount cap quote d1 amp
  let baseShare ← keptShare base d0 d1
  let baseMove ← (← Word.ofInt baseShare).sub newY
  let quoteShare ← keptShare quote d0 d1
  let quoteMove ← (← Word.ofInt quote).sub quoteShare
  let baseFee ← fees.imbalanceFee assetCount baseMove
  let quoteFee ← fees.imbalanceFee assetCount quoteMove
  let chargedBase ← (← Word.ofInt base).sub baseFee
  let chargedQuote ← (← Word.ofInt quote).sub quoteFee
  let adjustedY ← Curve.otherAmount cap chargedQuote d1 amp
  let dy ← (← chargedBase.sub adjustedY).sub 1
  return ⟨newY, baseMove.val, baseFee, dy.val⟩

/-- The fee of a withdrawal is what its payout lacks of the uncharged one. -/
theorem outcome_withdrawOne :
    (withdrawOne cap fees amp burned supply base quote).outcome =
      (payout cap fees amp burned supply base quote).outcome >>= fun p => do
        let dy0 ← (← Word.ofInt base).sub p.newY
        return ⟨p.dy, (← dy0.sub p.dy).val⟩ := by
  simp only [withdrawOne, payout, shrunk, keptShare, Traced.outcome_bind, Traced.outcome_liftM,
    Traced.outcome_pure, bind_assoc, pure_bind, ok_bind]
  rfl

/-- What the payout of a burn is made of: the invariants `d0` and `d1` before and after it, and the
reserve `adjustedY` beside the charged quote reserve. -/
structure Payout.Priced (p : Payout) (cap : Nat) (fees : Fees) (amp burned supply base quote : Int)
    (d0 d1 quoteShare quoteMove quoteFee adjustedY : Nat) : Prop where
  invariant : (Curve.invariant cap base quote amp).outcome = .ok d0
  isShrunk : shrunk burned supply d0 = .ok d1
  solved : (Curve.otherAmount cap quote d1 amp).outcome = .ok p.newY
  sharesBase : keptShare base d0 d1 = .ok (p.newY + p.baseMove)
  sharesQuote : keptShare quote d0 d1 = .ok quoteShare
  isQuote : quote = quoteShare + quoteMove
  chargesBase : fees.imbalanceFee assetCount (p.baseMove : Int) = .ok p.baseFee
  chargesQuote : fees.imbalanceFee assetCount (quoteMove : Int) = .ok quoteFee
  coversQuote : (quoteFee : Int) ≤ quote
  solvedCharged : (Curve.otherAmount cap (quote - quoteFee : Int) d1 amp).outcome = .ok adjustedY
  isBase : base = p.dy + 1 + adjustedY + p.baseFee
  baseFits : base < 2 ^ 256
  quoteFits : quote < 2 ^ 256

theorem payout_eq_ok {p : Payout} :
    (payout cap fees amp burned supply base quote).outcome = .ok p ↔
      ∃ d0 d1 quoteShare quoteMove quoteFee adjustedY, p.Priced cap fees amp burned supply base quote
        d0 d1 quoteShare quoteMove quoteFee adjustedY := by
  simp only [payout, Traced.outcome_bind, Traced.outcome_liftM, Traced.outcome_pure, bind_eq_ok,
    Word.ofInt_eq_ok, Word.sub_eq_ok, Except.ok.injEq]
  constructor
  · rintro ⟨d0, invariant, d1, isShrunk, newY, solved, kept, sharesBase, whole, isWhole, baseMove,
      isBaseMove, quoteShare, sharesQuote, wholeQuote, isWholeQuote, quoteMove, isQuoteMove, baseFee,
      chargesBase, quoteFee, chargesQuote, base', isBase', chargedBase, isChargedBase, quote', isQuote',
      chargedQuote, isChargedQuote, adjustedY, solvedCharged, _, _, dy, _, rfl⟩
    have isCharged : (chargedQuote.val : Int) = quote - quoteFee := by omega
    rw [isCharged] at solvedCharged
    obtain rfl : kept = newY + baseMove.val := by omega
    have baseFits := base'.lt
    have quoteFits := quote'.lt
    exact ⟨d0, d1, quoteShare, quoteMove.val, quoteFee, adjustedY, invariant, isShrunk, solved,
      sharesBase, sharesQuote, by omega, chargesBase, chargesQuote, by omega, solvedCharged,
      by dsimp only; omega, by omega, by omega⟩
  · rintro ⟨d0, d1, quoteShare, quoteMove, quoteFee, adjustedY, priced⟩
    have isBase := priced.isBase
    have isQuote := priced.isQuote
    have baseFits := priced.baseFits
    have quoteFits := priced.quoteFits
    have coversQuote := priced.coversQuote
    have shareFits := keptShare_lt priced.sharesBase
    obtain ⟨whole, isWhole⟩ :=
      Word.exists_val_eq (z := (p.newY + p.baseMove : Nat)) (by omega) (by omega)
    obtain ⟨baseMove, isBaseMove⟩ := Word.exists_val_eq (z := p.baseMove) (by omega) (by omega)
    obtain ⟨wholeQuote, isWholeQuote⟩ := Word.exists_val_eq (z := quote) (by omega) quoteFits
    obtain ⟨quoteMove', isQuoteMove⟩ := Word.exists_val_eq (z := quoteMove) (by omega) (by omega)
    obtain ⟨base', isBase'⟩ := Word.exists_val_eq (z := base) (by omega) baseFits
    obtain ⟨chargedBase, isChargedBase⟩ :=
      Word.exists_val_eq (z := base - p.baseFee) (by omega) (by omega)
    obtain ⟨chargedQuote, isChargedQuote⟩ :=
      Word.exists_val_eq (z := quote - quoteFee) (by omega) (by omega)
    obtain ⟨left, isLeft⟩ :=
      Word.exists_val_eq (z := base - p.baseFee - adjustedY) (by omega) (by omega)
    obtain ⟨dy, isDy⟩ := Word.exists_val_eq (z := p.dy) (by omega) (by omega)
    have solvedCharged := priced.solvedCharged
    have chargesBase := priced.chargesBase
    have chargesQuote := priced.chargesQuote
    rw [← isChargedQuote] at solvedCharged
    rw [← isBaseMove] at chargesBase
    rw [← isQuoteMove] at chargesQuote
    refine ⟨d0, priced.invariant, d1, priced.isShrunk, p.newY, priced.solved, _, priced.sharesBase,
      whole, isWhole, baseMove, by omega, quoteShare, priced.sharesQuote, wholeQuote, isWholeQuote,
      quoteMove', by omega, p.baseFee, chargesBase, quoteFee, chargesQuote, base', isBase', chargedBase,
      by omega, wholeQuote, isWholeQuote, chargedQuote, by omega, adjustedY, solvedCharged, left,
      by omega, dy, by omega, ?_⟩
    rw [show baseMove.val = p.baseMove by omega, show dy.val = p.dy by omega]

variable {p : Payout} {d0 d1 quoteShare quoteMove quoteFee adjustedY : Nat}

/-- The charge on the quote asset can only raise the base reserve that has to stay. -/
theorem Payout.Priced.newY_le (priced : p.Priced Curve.defaultCap fees amp burned supply base quote
    d0 d1 quoteShare quoteMove quoteFee adjustedY) : p.newY ≤ adjustedY := by
  have shrinks := shrunk_le priced.isShrunk
  have fits := Curve.invariant_fits (by decide) priced.invariant
  exact Curve.otherReserve_anti (by omega) (Int.natCast_nonneg d1) (by omega)
    (Curve.otherAmount_eq_ok.mp priced.solvedCharged).1 (Curve.otherAmount_eq_ok.mp priced.solved).1

theorem Payout.Priced.isPaid (priced : p.Priced Curve.defaultCap fees amp burned supply base quote
    d0 d1 quoteShare quoteMove quoteFee adjustedY) :
    (withdrawOne Curve.defaultCap fees amp burned supply base quote).outcome =
      .ok ⟨p.dy, 1 + p.baseFee + (adjustedY - p.newY)⟩ := by
  have grown := priced.newY_le
  have isBase := priced.isBase
  have baseFits := priced.baseFits
  have paid := payout_eq_ok.mpr ⟨d0, d1, quoteShare, quoteMove, quoteFee, adjustedY, priced⟩
  obtain ⟨whole, isWhole⟩ := Word.exists_val_eq (z := base) (by omega) baseFits
  obtain ⟨dy0, isDy0⟩ := Word.exists_val_eq (z := base - p.newY) (by omega) (by omega)
  obtain ⟨fee, isFee⟩ := Word.exists_val_eq (z := dy0.val - p.dy) (by omega) (by omega)
  rw [outcome_withdrawOne, paid, ok_bind, bind_eq_ok]
  refine ⟨whole, Word.ofInt_eq_ok.mpr isWhole, bind_eq_ok.mpr ⟨dy0, Word.sub_eq_ok.mpr (by omega),
    bind_eq_ok.mpr ⟨fee, Word.sub_eq_ok.mpr isFee, ?_⟩⟩⟩
  rw [pure_eq_ok, show fee.val = 1 + p.baseFee + (adjustedY - p.newY) by omega]

/-- Without charges the same burn pays what the charges and their effect on the curve took. -/
theorem Payout.Priced.uncharged (priced : p.Priced Curve.defaultCap fees amp burned supply base quote
    d0 d1 quoteShare quoteMove quoteFee adjustedY) :
    Payout.Priced ⟨p.newY, p.baseMove, 0, p.dy + p.baseFee + (adjustedY - p.newY)⟩ Curve.defaultCap
      .free amp burned supply base quote d0 d1 quoteShare quoteMove 0 p.newY := by
  have grown := priced.newY_le
  have isBase := priced.isBase
  have coversQuote := priced.coversQuote
  obtain ⟨moveNonneg, moveFits⟩ := Fees.nonneg_of_imbalanceFee priced.chargesBase
  obtain ⟨quoteNonneg, quoteMoveFits⟩ := Fees.nonneg_of_imbalanceFee priced.chargesQuote
  exact { priced with
    chargesBase := Fees.imbalanceFee_free moveNonneg moveFits
    chargesQuote := Fees.imbalanceFee_free quoteNonneg quoteMoveFits
    coversQuote := by omega
    solvedCharged := by simpa only [Nat.cast_zero, sub_zero] using priced.solved
    isBase := by dsimp only; omega }

/-- A burn that is priced up to what it pays has a fee, of at least one unit and the charge on the
base asset, and it pays no more than it would in a pool that charges nothing. -/
theorem oneAsset_fee_covers_charge (fees : Fees) (amp burned supply base quote : Int) (p : Payout)
    (paid : (payout Curve.defaultCap fees amp burned supply base quote).outcome = .ok p) :
    fees.imbalanceFee assetCount (p.baseMove : Int) = .ok p.baseFee ∧
    (∃ fee : Nat, (withdrawOne Curve.defaultCap fees amp burned supply base quote).outcome =
      .ok ⟨p.dy, fee⟩ ∧ 1 + p.baseFee ≤ fee) ∧
    ∃ w : Withdrawal,
      (withdrawOne Curve.defaultCap .free amp burned supply base quote).outcome = .ok w ∧
        p.dy ≤ w.dy := by
  obtain ⟨d0, d1, quoteShare, quoteMove, quoteFee, adjustedY, priced⟩ := payout_eq_ok.mp paid
  refine ⟨priced.chargesBase, ⟨_, priced.isPaid, by omega⟩, _, priced.uncharged.isPaid, ?_⟩
  dsimp only
  omega

/-- At a trade fee of a tenth, 15 of the 297 that 300 of 2000 pool tokens are worth are kept. -/
theorem oneAsset_fee_covers_charge_of_tenth :
    let fees := { Fees.free with trade := ⟨⟨10, by decide⟩, ⟨100, by decide⟩⟩ }
    (payout Curve.defaultCap fees 10 300 2000 1000 1000).outcome = .ok ⟨702, 148, 7, 283⟩ ∧
      (∃ fee : Nat, (withdrawOne Curve.defaultCap fees 10 300 2000 1000 1000).outcome = .ok ⟨283, fee⟩ ∧
        1 + 7 ≤ fee) ∧
      ∃ w : Withdrawal, (withdrawOne Curve.defaultCap .free 10 300 2000 1000 1000).outcome = .ok w ∧
        283 ≤ w.dy :=
  ⟨rfl, (oneAsset_fee_covers_charge _ 10 300 2000 1000 1000 ⟨702, 148, 7, 283⟩ rfl).2⟩

/-! ## What is left to the other pool tokens -/

theorem exists_priced_of_withdrawOne
    (paid : (withdrawOne cap fees amp burned supply base quote).outcome = .ok w) :
    ∃ p d0 d1 quoteShare quoteMove quoteFee adjustedY, Payout.Priced p cap fees amp burned supply base
      quote d0 d1 quoteShare quoteMove quoteFee adjustedY ∧ base = w.dy + w.fee + p.newY := by
  rw [outcome_withdrawOne] at paid
  simp only [bind_eq_ok, Word.ofInt_eq_ok, Word.sub_eq_ok, pure_eq_ok] at paid
  obtain ⟨p, payable, whole, isWhole, dy0, isDy0, fee, isFee, rfl⟩ := paid
  obtain ⟨d0, d1, quoteShare, quoteMove, quoteFee, adjustedY, priced⟩ := payout_eq_ok.mp payable
  refine ⟨p, d0, d1, quoteShare, quoteMove, quoteFee, adjustedY, priced, ?_⟩
  dsimp only
  omega

theorem one_le_fee_of_withdrawOne
    (paid : (withdrawOne Curve.defaultCap fees amp burned supply base quote).outcome = .ok w) :
    1 ≤ w.fee := by
  obtain ⟨p, _, _, _, _, _, _, priced, isBase⟩ := exists_priced_of_withdrawOne paid
  cases paid.symm.trans priced.isPaid
  dsimp only
  omega

/-- Where each pool token is a unit of the invariant, as many units are left as tokens. -/
theorem shrunk_add_of_supply {d0 d1 : Nat} (isShrunk : shrunk burned d0 d0 = .ok d1) :
    d1 + burned = d0 := by
  obtain ⟨nonzero, cut, isCut, isLeft⟩ := shrunk_spec isShrunk
  rw [Int.mul_fdiv_cancel _ (by omega)] at isCut
  omega

/-- As long as there is at most one pool token more than units of the invariant, those that are kept
have a unit each. -/
theorem le_shrunk_of_le_succ {kept : Int} {d0 d1 : Nat} (keptNonneg : 0 ≤ kept) (burnedPos : 1 ≤ burned)
    (backed : kept + burned ≤ d0 + 1) (isShrunk : shrunk burned (kept + burned) d0 = .ok d1) :
    kept ≤ d1 := by
  obtain ⟨-, cut, isCut, isLeft⟩ := shrunk_spec isShrunk
  obtain ⟨cutLe, -⟩ := Word.fdiv_bounds (n := burned * d0) (show 0 < kept + burned by omega)
  rw [← isCut] at cutLe
  by_contra less
  have more : (d0 - kept + 1) * (kept + burned) ≤ cut * (kept + burned) :=
    mul_le_mul_of_nonneg_right (by omega) (by omega)
  have : kept * (kept + burned) ≤ kept * (d0 + 1) := mul_le_mul_of_nonneg_left backed keptNonneg
  linarith

/-- With two units of fee the remaining pool tokens keep their invariant. -/
theorem withdrawOne_keeps_invariant {d0 d : Nat} (capPos : 1 ≤ cap) (burnedLt : burned < d0)
    (before : (Curve.invariant cap base quote amp).outcome = .ok d0)
    (paid : (withdrawOne cap fees amp burned d0 base quote).outcome = .ok w) (two : 2 ≤ w.fee)
    (after : (Curve.invariant cap (base - w.dy : Int) quote amp).outcome = .ok d) : d0 - burned ≤ d := by
  obtain ⟨p, d0', d1, _, _, _, _, priced, isBase⟩ := exists_priced_of_withdrawOne paid
  obtain rfl : d0' = d0 := Except.ok.inj (priced.invariant.symm.trans before)
  have left := shrunk_add_of_supply priced.isShrunk
  obtain ⟨⟨quotePos, -, ampPos⟩, solved⟩ := Curve.otherAmount_spec capPos priced.solved
  obtain ⟨none, -, -⟩ | ⟨-, approach⟩ := Curve.invariant_spec capPos after
  · omega
  · have reached := Curve.residual_nonneg_of_reserve quotePos (by omega) ampPos (by omega) solved
      (y := base - w.dy) (by omega)
    rw [Curve.residual_comm] at reached
    have atLeast := Curve.le_of_residual (by omega) quotePos ampPos (by omega) reached approach.after
    omega

end Exchange

end PegPool
