import PegPool.Proofs.Json.Integers
import PegPool.Proofs.Pool.LiveReserves
import PegPool.Proofs.Quote.Failures
import PegPool.Proofs.Service.Responses
import PegPool.Service.Endpoint

/-!
# The service answers with the quotes

A request for a quote whose body is valid (`Inquiry.Validates`) is priced (`Inquiry.Prices`), and
answered with what the pricing comes to (`Answers`): a quote with status 200, an error or the lack of a
quote with status 400 (`respond_answers`).  There is no other answer and no failure of the service: a
valid body describes a pool, every error has a kind, and what a quote or an error shows can be written.
-/

namespace PegPool

namespace Service

/-! ## What a quote comes to -/

/-- The error has a kind, and the amounts that it may show are not negative. -/
structure Told (e : QuoteError) : Prop where
  kind : e.kind?.isSome = true
  amounts : ∀ expected actual, e = .slippage expected actual → 0 ≤ expected ∧ 0 ≤ actual

theorem told_slippage {expected actual : Int} (expectedNonneg : 0 ≤ expected)
    (actualNonneg : 0 ≤ actual) : Told (.slippage expected actual) := by
  refine ⟨rfl, ?_⟩
  intro _ _ same
  cases same
  exact ⟨expectedNonneg, actualNonneg⟩

theorem told_of_kind {e : QuoteError} {kind : String} (isKind : e.kind? = some kind)
    (other : kind ≠ "exceeded_slippage") : Told e := by
  refine ⟨by rw [isKind]; rfl, ?_⟩
  rintro expected actual rfl
  cases isKind
  exact absurd rfl other

theorem told_failed {α : Type} {kinds : List String} {operation : Operation} {fault : Fault}
    (fails : Quote.FailsOnlyAs kinds (.error (.ofFault operation fault) : Except QuoteError α)) :
    Told (.ofFault operation fault) := by
  obtain ⟨kind, -, isKind⟩ := fails _ rfl
  cases caught : fault.isCaught with
  | true =>
    rw [Quote.ofFault_of_caught caught]
    exact told_of_kind rfl (by decide)
  | false =>
    rw [QuoteError.ofFault, caught] at isKind
    cases isKind

theorem told_short {minimum : Amount} {payout : Nat} (less : (payout : Int) < minimum.val) :
    Told (QuoteError.slippage minimum.val payout).told := by
  rw [Quote.slippage_told less, if_pos minimum.isWritable]
  exact told_slippage (by omega) (by omega)

theorem told_overBurn {burned supply : Amount} (exceeds : (supply.val : Int) < burned.val) :
    Told (QuoteError.overBurn burned.val supply.val).told := by
  rw [Quote.overBurn_told burned.isWritable exceeds]
  exact told_of_kind rfl (by decide)

/-- A caller can be told of the outcome. -/
inductive Tellable {α : Type} (price : α → Priced) : Except QuoteError (Option α) → Prop where
  | nothing : Tellable price (.ok none)
  | quoted {q : α} (fits : (price q).Fits) : Tellable price (.ok (some q))
  | failed {e : QuoteError} (told : Told e) : Tellable price (.error e)

end Service

namespace Quote

open Service

variable {cap : Nat}

theorem tellable_found (capPos : 1 ≤ cap) {amp : Int} (ampWritable : Text.isWritable amp = true)
    (a b : Amount) : Tellable .founding ((found cap {} amp a.val b.val).outcome.map some) := by
  obtain ⟨x, ending⟩ := exists_foundEnding capPos {} amp a.val b.val
  rw [ending.outcome]
  cases ending with
  | invalidAmp outside =>
    rw [told_eq (by simp [QuoteError.numbers, ampWritable])]
    exact .failed (told_of_kind rfl (by decide))
  | emptyReserve contained zero => exact .failed (told_of_kind rfl (by decide))
  | malformedRamp contained aNonzero bNonzero negative =>
    simp only [RampPolicy.contains, Bool.and_eq_true, decide_eq_true_eq] at contained
    omega
  | failed foundable failed =>
    have caught := Curve.invariant_caught cap a.isWritable b.isWritable ampWritable
    rw [ofFault_of_caught (caught.faults _ failed)]
    exact .failed (told_of_kind rfl (by decide))
  | founded foundable isRamp invariant isA isB isSupply =>
    have contained := foundable.contained
    simp only [RampPolicy.contains, Bool.and_eq_true, decide_eq_true_eq] at contained
    rw [Ramp.fixed_of_nonneg (by omega)] at isRamp
    cases isRamp
    refine .quoted (.founding _ ⟨⟨?_, ?_⟩, ⟨?_, ?_⟩, ?_, ?_⟩ (Curve.invariant_fits capPos invariant))
    all_goals
      simp only [RampBody.ofRamp, RampBody.leastAmp, RampBody.mostAmp]
      omega

section Priced

variable {pool : Pool} (ramp : BriefRamp pool.ramp) (cap : Nat) (now : Int)

include ramp in
theorem tellable_swap (amountIn minimum : Amount) (direction : Direction) :
    Tellable .swap (swap cap pool now amountIn.val minimum.val direction).outcome := by
  have fails := swap_failsOnlyAs ramp amountIn.brief minimum.brief cap now direction
  obtain ⟨x, ending⟩ := exists_swapEnding cap pool now amountIn.val minimum.val direction
  rw [ending.outcome] at *
  cases ending with
  | nothing zero => exact .nothing
  | failed nonzero failed => exact .failed (told_failed fails)
  | short nonzero priced less => exact .failed (told_short less)
  | swapped nonzero priced enough isSource isDestination sameSupply =>
    obtain ⟨d, y, -, -, -, -, paidOut, left⟩ := Exchange.exists_pricedSwap priced
    have amountFits := amountIn.lt
    have destinationFits := (pool.reserves.get direction.destination).lt
    refine .quoted (.swap _ ⟨?_, ?_⟩ ?_ ?_ ?_)
    all_goals
      dsimp only
      omega

include ramp in
theorem tellable_deposit (amountA amountB minimum : Amount) :
    Tellable .deposit (deposit cap pool now amountA.val amountB.val minimum.val).outcome := by
  have fails := deposit_failsOnlyAs ramp amountA.brief amountB.brief minimum.brief cap now
  obtain ⟨x, ending⟩ := exists_depositEnding cap pool now amountA.val amountB.val minimum.val
  rw [ending.outcome] at *
  cases ending with
  | nothing zero => exact .nothing
  | empty nonzero noSupply => exact .failed (told_of_kind rfl (by decide))
  | failed nonzero supplyPos failed => exact .failed (told_failed fails)
  | short nonzero supplyPos priced less => exact .failed (told_short less)
  | overflow nonzero supplyPos priced enough exceeds =>
    exact .failed (told_of_kind rfl (by decide))
  | @deposited minted next nonzero supplyPos priced enough isA isB isSupply =>
    have supplyFits := next.supply.lt
    exact .quoted (.deposit _ (by dsimp only; omega))

include ramp in
theorem tellable_withdrawOne (burned minimum : Amount) (base : Asset) :
    Tellable .oneWithdrawal (withdrawOne cap pool now burned.val minimum.val base).outcome := by
  have fails := withdrawOne_failsOnlyAs ramp burned.brief minimum.brief cap now base
  obtain ⟨x, ending⟩ := exists_withdrawOneEnding cap pool now burned.val minimum.val base
  rw [ending.outcome] at *
  cases ending with
  | nothing zero => exact .nothing
  | empty nonzero noSupply => exact .failed (told_of_kind rfl (by decide))
  | overBurn nonzero supplyPos exceeds => exact .failed (told_overBurn exceeds)
  | failed nonzero burnable failed => exact .failed (told_failed fails)
  | uncharged nonzero burnable priced uncharged => exact .failed (told_of_kind rfl (by decide))
  | short nonzero burnable charged less => exact .failed (told_short less)
  | unbacked nonzero burnable charged enough lacks =>
    exact .failed (told_of_kind rfl (by decide))
  | withdrawn nonzero burnable charged enough isAdminFee isBase sameOther isSupply =>
    obtain ⟨-, adjustedY, baseFee, newY, isDy, isFee⟩ := Exchange.withdrawOne_spec charged.priced
    have isAmount := charged.isAmount
    have burnedFits := burned.lt
    have baseFits := (pool.reserves.get base).lt
    refine .quoted (.oneWithdrawal _ ⟨?_, ?_⟩ ?_ ?_ ?_ ?_)
    all_goals
      dsimp only
      omega

end Priced

theorem shareFits_of_priced {fees : Fees} {burned supply reserve : Int} {s : Exchange.ShareAmounts}
    (priced : Exchange.withdrawShare fees burned supply reserve = .ok s)
    (adminFits : s.adminFee < 2 ^ 64) : ShareFits s := by
  obtain ⟨share, tradeFee, withdrawFee, adminTrade, adminWithdraw, isFee, isAdminFee, -⟩ :=
    Exchange.withdrawShare_spec priced
  obtain ⟨-, -, -, -, -, shareFits⟩ := mulDiv_eq_ok.mp share
  exact ⟨by omega, by omega, adminFits⟩

theorem tellable_withdraw (pool : Pool) (burned minimumA minimumB : Amount) :
    Tellable .withdrawal (withdraw pool burned.val minimumA.val minimumB.val).outcome := by
  have fails := withdraw_failsOnlyAs burned.brief minimumA.brief minimumB.brief pool
  obtain ⟨x, ending⟩ := exists_withdrawEnding pool burned.val minimumA.val minimumB.val
  rw [ending.outcome] at *
  cases ending with
  | nothing zero => exact .nothing
  | empty nonzero noSupply => exact .failed (told_of_kind rfl (by decide))
  | overBurn nonzero supplyPos exceeds => exact .failed (told_overBurn exceeds)
  | failed nonzero burnable failed => exact .failed (told_failed fails)
  | shortA nonzero burnable priced less => exact .failed (told_short less)
  | shortB nonzero burnable priced enough less => exact .failed (told_short less)
  | unbacked nonzero burnable priced enoughA enoughB lacks =>
    exact .failed (told_of_kind rfl (by decide))
  | withdrawn nonzero burnable priced enoughA enoughB isA isB isSupply =>
    have burnedFits := burned.lt
    have aFits := pool.reserves.a.lt
    have bFits := pool.reserves.b.lt
    have sharesA := shareFits_of_priced priced.1 (by omega)
    have sharesB := shareFits_of_priced priced.2 (by omega)
    refine .quoted (.withdrawal _ ⟨?_, ?_⟩ sharesA sharesB)
    all_goals
      dsimp only
      omega

end Quote

namespace Service

/-! ## Answers -/

def shownError (kind : String) : QuoteError → Json
  | .slippage expected actual => .obj [("error", kind),
      ("detail", (QuoteError.slippage expected actual).message), ("expected", decimal expected),
      ("actual", decimal actual)]
  | e => .obj [("error", kind), ("detail", e.message)]

/-- The reply tells what the operation came to. -/
inductive Answers (operation : String) : Except QuoteError (Option Priced) → Reply → Prop where
  | quoted (x : Priced) (accepted : x.Accepted) :
      Answers operation (.ok (some x)) (.json 200 x.shown)
  | nothing : Answers operation (.ok none) (.json 400 (.obj [("error", "invalid_input"),
      ("detail", s!"{operation} with a zero amount is a no-op")]))
  | rejected (e : QuoteError) (kind : String) (isKind : e.kind? = some kind) :
      Answers operation (.error e) (.json 400 (shownError kind e))

section Answer

variable {α : Type} {path operation : String} {write : α → Json} {price : α → Priced}

theorem answer_error {events : List Event} {e : QuoteError} {kind : String} (told : Told e)
    (isKind : e.kind? = some kind) :
    (answer path ⟨events, .error e⟩ write).outcome = .ok (.json 400 (shownError kind e)) := by
  unfold answer
  dsimp only
  rw [isKind]
  cases e with
  | slippage expected actual =>
    obtain ⟨expectedNonneg, actualNonneg⟩ := told.amounts expected actual rfl
    obtain ⟨m, rfl⟩ := Int.eq_ofNat_of_zero_le expectedNonneg
    obtain ⟨n, rfl⟩ := Int.eq_ofNat_of_zero_le actualNonneg
    rfl
  | _ => rfl

theorem exists_answer {x : Traced QuoteError α} (writes : ∀ q, write q = (price q).written)
    (tellable : Tellable price (x.outcome.map some)) :
    ∃ reply, (answer path x write).outcome = .ok reply ∧
      Answers operation (x.outcome.map (some ∘ price)) reply := by
  obtain ⟨events, outcome⟩ := x
  cases outcome with
  | ok q =>
    cases tellable with
    | quoted fits =>
      refine ⟨.json 200 (write q), rfl, ?_⟩
      rw [writes, fits.written]
      exact .quoted (price q) fits.accepted
  | error e =>
    cases tellable with
    | failed told =>
      obtain ⟨kind, isKind⟩ := Option.isSome_iff_exists.mp told.kind
      exact ⟨_, answer_error told isKind, .rejected e kind isKind⟩

theorem exists_answer? {x : Traced QuoteError (Option α)}
    (writes : ∀ q, write q = (price q).written) (tellable : Tellable price x.outcome) :
    ∃ reply, (answer? path operation x write).outcome = .ok reply ∧
      Answers operation (x.outcome.map (Option.map price)) reply := by
  obtain ⟨events, outcome⟩ := x
  cases tellable with
  | nothing => exact ⟨_, rfl, .nothing⟩
  | @quoted q fits =>
    change ∃ reply, (answer path ⟨events, .ok q⟩ write).outcome = .ok reply ∧ _
    exact exists_answer writes (.quoted fits)
  | @failed e told =>
    change ∃ reply, (answer path ⟨events, .error e⟩ write).outcome = .ok reply ∧ _
    exact exists_answer writes (.failed told)

end Answer

/-! ## Requests for a quote -/

/-- What a request asks for. -/
inductive Inquiry where
  | found (r : FoundRequest)
  | swap (r : SwapRequest)
  | deposit (r : DepositRequest)
  | withdraw (r : WithdrawRequest)
  | withdrawOne (r : WithdrawOneRequest)

namespace Inquiry

def path : Inquiry → String
  | found _ => "/quote/initialize"
  | swap _ => "/quote/swap"
  | deposit _ => "/quote/deposit"
  | withdraw _ => "/quote/withdraw"
  | withdrawOne _ => "/quote/withdraw-one"

/-- The name by which an answer calls the operation. -/
def operation : Inquiry → String
  | found _ => "initialize"
  | swap _ => "swap"
  | deposit _ => "deposit"
  | withdraw _ => "withdraw"
  | withdrawOne _ => "withdraw_one"

/-- The body of a request is read as `a`, without issues. -/
def ReadAs {α : Type} (q : Request) (read : Reader α) (a : α) : Prop :=
  ∃ value, bodyValue q = .ok value ∧ value.andThen (read bodyPlace) = .good a

theorem readAs_iff {α : Type} {q : Request} {read : Reader α} {a : α} : ReadAs q read a ↔
    ((bodyValue q).toOption.bind fun value => (value.andThen (read bodyPlace)).value?) = some a := by
  unfold ReadAs
  cases bodyValue q with
  | error reply => simp [Except.toOption]
  | ok value => cases reads : value.andThen (read bodyPlace) with
    | good b => simp [Except.toOption, Checked.value?, reads]
    | bad issues => simp [Except.toOption, Checked.value?, reads]

instance {α : Type} [DecidableEq α] (q : Request) (read : Reader α) (a : α) :
    Decidable (ReadAs q read a) :=
  decidable_of_iff _ readAs_iff.symm

/-- The body of a request is a valid one of its kind, and asks for this. -/
def Validates (q : Request) : Inquiry → Prop
  | found r => ReadAs q FoundRequest.read r
  | swap r => ReadAs q SwapRequest.read r
  | deposit r => ReadAs q DepositRequest.read r
  | withdraw r => ReadAs q WithdrawRequest.read r
  | withdrawOne r => ReadAs q WithdrawOneRequest.read r

/-- What the library gives for the request: the quote, priced at the time that the request says, or
else at the time of the clock, in the pool that the request describes. -/
inductive Prices (clock : Int) : Inquiry → Except QuoteError (Option Priced) → Prop where
  | found (r : FoundRequest) : Prices clock (.found r)
      ((Quote.found Curve.defaultCap {} r.amp r.reserveA.val r.reserveB.val).outcome.map
        (some ∘ .founding))
  | swap (r : SwapRequest) (pool : Pool) (describes : r.subject.pool.Describes pool) :
      Prices clock (.swap r) ((Quote.swap Curve.defaultCap pool (r.subject.now.getD clock)
        r.amountIn.val r.minimum.val r.direction).outcome.map (Option.map .swap))
  | deposit (r : DepositRequest) (pool : Pool) (describes : r.subject.pool.Describes pool) :
      Prices clock (.deposit r) ((Quote.deposit Curve.defaultCap pool (r.subject.now.getD clock)
        r.amountA.val r.amountB.val r.minimum.val).outcome.map (Option.map .deposit))
  | withdraw (r : WithdrawRequest) (pool : Pool) (describes : r.subject.pool.Describes pool) :
      Prices clock (.withdraw r) ((Quote.withdraw pool r.burned.val r.minimumA.val
        r.minimumB.val).outcome.map (Option.map .withdrawal))
  | withdrawOne (r : WithdrawOneRequest) (pool : Pool) (describes : r.subject.pool.Describes pool) :
      Prices clock (.withdrawOne r) ((Quote.withdrawOne Curve.defaultCap pool
        (r.subject.now.getD clock) r.burned.val r.minimum.val r.base).outcome.map
          (Option.map .oneWithdrawal))

end Inquiry

theorem withBody_eq {α : Type} {q : Request} {read : Reader α} {a : α}
    {next : α → Traced ServerFault Reply} (readAs : Inquiry.ReadAs q read a) :
    withBody q read next = next a := by
  obtain ⟨value, isValue, good⟩ := readAs
  rw [withBody, isValue]
  dsimp only
  rw [good]

theorem Subject.valid_of_read {r : Record} {s : Subject} (good : read r = .good s) : s.pool.Valid := by
  obtain ⟨_, _, fields, -, rfl⟩ := Checked.seq_eq_good.mp good
  obtain ⟨pool, readPool, rfl⟩ := Checked.map_eq_good.mp fields
  obtain ⟨_, _, given⟩ := required_good readPool
  exact PoolBody.valid_of_read given

theorem subjectPool_bind {s : Subject} {pool : Pool} (describes : s.pool.Describes pool)
    (next : Pool → Traced ServerFault Reply) : subjectPool s >>= next = next pool := by
  rw [subjectPool, describes.toPool]
  rfl

/-! A valid request describes a pool. -/

theorem valid_of_body {α β γ δ : Type} {title : String} {make : Subject → β → γ → δ → α}
    {b : Record → Checked β} {c : Record → Checked γ} {d : Record → Checked δ} {p : Place} {j : Json}
    {a : α} (good : body title (fun r => make <$> Subject.read r <*> b r <*> c r <*> d r) p j = .good a) :
    ∃ s b c d, make s b c d = a ∧ s.pool.Valid := by
  obtain ⟨r, fields⟩ := body_good good
  simp only [Checked.seq_eq_good, Checked.map_eq_good] at fields
  obtain ⟨_, d, ⟨_, c, ⟨_, b, ⟨s, readSubject, rfl⟩, -, rfl⟩, -, rfl⟩, -, rfl⟩ := fields
  exact ⟨s, b, c, d, rfl, Subject.valid_of_read readSubject⟩

theorem SwapRequest.valid_of_read {p : Place} {j : Json} {r : SwapRequest}
    (good : read p j = .good r) : r.subject.pool.Valid := by
  obtain ⟨_, _, _, _, rfl, valid⟩ := valid_of_body good
  exact valid

theorem DepositRequest.valid_of_read {p : Place} {j : Json} {r : DepositRequest}
    (good : read p j = .good r) : r.subject.pool.Valid := by
  obtain ⟨_, _, _, _, rfl, valid⟩ := valid_of_body good
  exact valid

theorem WithdrawRequest.valid_of_read {p : Place} {j : Json} {r : WithdrawRequest}
    (good : read p j = .good r) : r.subject.pool.Valid := by
  obtain ⟨_, _, _, _, rfl, valid⟩ := valid_of_body good
  exact valid

theorem WithdrawOneRequest.valid_of_read {p : Place} {j : Json} {r : WithdrawOneRequest}
    (good : read p j = .good r) : r.subject.pool.Valid := by
  obtain ⟨_, _, _, _, rfl, valid⟩ := valid_of_body good
  exact valid

theorem Inquiry.ReadAs.exists_good {α : Type} {q : Request} {read : Reader α} {a : α}
    (readAs : ReadAs q read a) : ∃ j, bodyValue q = .ok (.good j) ∧ read bodyPlace j = .good a := by
  obtain ⟨value, isValue, good⟩ := readAs
  obtain ⟨j, rfl, good⟩ := Checked.andThen_eq_good.mp good
  exact ⟨j, isValue, good⟩

theorem Inquiry.ReadAs.valid {α : Type} {q : Request} {read : Reader α} {a : α}
    (readAs : ReadAs q read a) (subject : α → Subject)
    (valid : ∀ {p j}, read p j = .good a → (subject a).pool.Valid) : (subject a).pool.Valid := by
  obtain ⟨j, -, good⟩ := readAs.exists_good
  exact valid good

/-- The coefficients of a valid body are within the bounds of a request. -/
theorem PoolBody.Valid.briefRamp {b : PoolBody} {pool : Pool} (valid : b.Valid)
    (describes : b.Describes pool) : Quote.BriefRamp pool.ramp := by
  obtain ⟨⟨initialLeast, initialMost⟩, ⟨targetLeast, targetMost⟩, -, -⟩ := valid.ramp
  obtain ⟨initial, target, -, -⟩ := describes.ramp
  unfold RampBody.leastAmp RampBody.mostAmp at *
  exact ⟨.of_lt (by omega), .of_lt (by omega)⟩

/-! The coefficient of a founding is a number that was read. -/

theorem bodyValue_writable {q : Request} {j : Json} (isValue : bodyValue q = .ok (.good j)) : j.Writable := by
  unfold bodyValue at isValue
  split at isValue
  · cases isValue
  · split at isValue
    · cases isValue
      exact .str _
    · split at isValue
      case h_1 isRead =>
        cases isValue
        exact Json.writable_of_read? isRead
      case h_2 => cases isValue
      case h_3 => cases isValue

theorem integerOf_writable {j : Json} {z : Int} (writable : j.Writable) (isInteger : integerOf j = .ok z) :
    Text.isWritable z = true := by
  unfold integerOf at isInteger
  split at isInteger
  case h_1 =>
    cases isInteger
    cases writable with
    | int writable => exact writable
  case h_2 value =>
    cases isInteger
    cases value with
    | true | false => exact Text.isWritable_of_lt (by decide)
  case h_3 x =>
    split at isInteger
    · cases isInteger
    · split at isInteger
      · cases isInteger
      · split at isInteger
        case isTrue fits =>
          cases isInteger
          exact Text.isWritable_of_lt (by omega)
        case isFalse => cases isInteger
  case h_4 => cases isInteger
  case h_5 text =>
    split at isInteger
    case h_1 isRead =>
      cases isInteger
      exact Text.isWritable_of_readPlainNumeral isRead
    case h_2 => cases isInteger
    case h_3 => cases isInteger
  case h_6 => cases isInteger

theorem integer_writable {p : Place} {j : Json} {z : Int} (writable : j.Writable)
    (good : integer p j = .good z) : Text.isWritable z = true := by
  unfold integer at good
  split at good
  case h_1 isInteger =>
    cases good
    exact integerOf_writable writable isInteger
  case h_2 => cases good

theorem FoundRequest.writable_of_read {p : Place} {j : Json} {r : FoundRequest} (writable : j.Writable)
    (good : read p j = .good r) : Text.isWritable r.amp = true := by
  obtain ⟨members, rfl, fields⟩ := body_members good
  simp only [Checked.seq_eq_good, Checked.map_eq_good] at fields
  obtain ⟨_, b, ⟨_, a, ⟨amp, readAmp, rfl⟩, -, rfl⟩, -, rfl⟩ := fields
  obtain ⟨k, value, found, isAmp⟩ := required_found readAmp
  refine integer_writable ?_ isAmp
  cases writable with
  | obj each =>
    unfold Record.find? at found
    split at found
    case h_1 isValue =>
      cases found
      exact Json.writable_find? each isValue
    case h_2 =>
      obtain ⟨v, isValue, isFound⟩ := Option.map_eq_some_iff.mp found
      cases isFound
      exact Json.writable_find? each isValue

def Inquiry.route : Inquiry → Route
  | found _ => .found
  | swap _ => .swap
  | deposit _ => .deposit
  | withdraw _ => .withdraw
  | withdrawOne _ => .withdrawOne

theorem respond_eq {q : Request} {inquiry : Inquiry} (isPath : q.path = inquiry.path)
    (isPost : q.method = "POST") (fits : announcesTooMuch q.contentLength = .ok false) :
    respond q = handle q inquiry.route := by
  have isRoute : Route.ofPath? q.path = some inquiry.route := by
    rw [isPath]
    cases inquiry with
    | _ => rfl
  have isMethod : q.method = inquiry.route.method := by
    rw [isPost]
    cases inquiry with
    | _ => rfl
  rw [respond, fits, isRoute]
  dsimp only
  rw [if_pos isMethod]
  rfl

theorem exists_price {q : Request} {inquiry : Inquiry} (validates : inquiry.Validates q) :
    ∃ x, inquiry.Prices q.clock x := by
  cases inquiry with
  | found r => exact ⟨_, .found r⟩
  | swap r =>
    obtain ⟨pool, describes⟩ := (validates.valid SwapRequest.subject SwapRequest.valid_of_read).exists_pool
    exact ⟨_, .swap r pool describes⟩
  | deposit r =>
    obtain ⟨pool, describes⟩ :=
      (validates.valid DepositRequest.subject DepositRequest.valid_of_read).exists_pool
    exact ⟨_, .deposit r pool describes⟩
  | withdraw r =>
    obtain ⟨pool, describes⟩ :=
      (validates.valid WithdrawRequest.subject WithdrawRequest.valid_of_read).exists_pool
    exact ⟨_, .withdraw r pool describes⟩
  | withdrawOne r =>
    obtain ⟨pool, describes⟩ :=
      (validates.valid WithdrawOneRequest.subject WithdrawOneRequest.valid_of_read).exists_pool
    exact ⟨_, .withdrawOne r pool describes⟩

theorem exists_reply {q : Request} {inquiry : Inquiry} {x : Except QuoteError (Option Priced)}
    (validates : inquiry.Validates q) (prices : inquiry.Prices q.clock x) :
    ∃ reply, (handle q inquiry.route).outcome = .ok reply ∧ Answers inquiry.operation x reply := by
  cases prices with
  | found r =>
    obtain ⟨j, isValue, good⟩ := Inquiry.ReadAs.exists_good validates
    have writable := FoundRequest.writable_of_read (bodyValue_writable isValue) good
    simp only [Inquiry.route, handle, withBody_eq validates]
    exact exists_answer (fun _ => rfl)
      (Quote.tellable_found (by decide) writable r.reserveA r.reserveB)
  | swap r pool describes =>
    have valid := Inquiry.ReadAs.valid validates SwapRequest.subject SwapRequest.valid_of_read
    simp only [Inquiry.route, handle, withBody_eq validates, subjectPool_bind describes]
    exact exists_answer? (fun _ => rfl) (Quote.tellable_swap (valid.briefRamp describes) _ _
      r.amountIn r.minimum r.direction)
  | deposit r pool describes =>
    have valid := Inquiry.ReadAs.valid validates DepositRequest.subject DepositRequest.valid_of_read
    simp only [Inquiry.route, handle, withBody_eq validates, subjectPool_bind describes]
    exact exists_answer? (fun _ => rfl) (Quote.tellable_deposit (valid.briefRamp describes) _ _
      r.amountA r.amountB r.minimum)
  | withdraw r pool describes =>
    simp only [Inquiry.route, handle, withBody_eq validates, subjectPool_bind describes]
    exact exists_answer? (fun _ => rfl)
      (Quote.tellable_withdraw pool r.burned r.minimumA r.minimumB)
  | withdrawOne r pool describes =>
    have valid :=
      Inquiry.ReadAs.valid validates WithdrawOneRequest.subject WithdrawOneRequest.valid_of_read
    simp only [Inquiry.route, handle, withBody_eq validates, subjectPool_bind describes]
    exact exists_answer? (fun _ => rfl) (Quote.tellable_withdrawOne (valid.briefRamp describes) _ _
      r.burned r.minimum r.base)

theorem Answers.status {operation : String} {x : Except QuoteError (Option Priced)} {reply : Reply}
    (answers : Answers operation x reply) :
    (reply.status = 200 ↔ ∃ priced, x = .ok (some priced)) ∧
      (reply.status = 400 ↔ x = .ok none ∨ ∃ e kind, x = .error e ∧ e.kind? = some kind) := by
  cases answers with
  | quoted priced => simp [Reply.status]
  | nothing => simp [Reply.status]
  | rejected e kind isKind => simp [Reply.status, isKind]

/-- A request whose body is valid is answered with what the pricing of its inquiry comes to: with
status 200 if that is a quote, and with status 400 if it is an error or nothing. -/
theorem respond_answers (q : Request) (inquiry : Inquiry) (isPath : q.path = inquiry.path)
    (isPost : q.method = "POST") (fits : announcesTooMuch q.contentLength = .ok false)
    (validates : inquiry.Validates q) :
    (∃ x, inquiry.Prices q.clock x) ∧ ∀ x, inquiry.Prices q.clock x →
      ∃ reply, (respond q).outcome = .ok reply ∧ Answers inquiry.operation x reply ∧
        (reply.status = 200 ↔ ∃ priced, x = .ok (some priced)) ∧
        (reply.status = 400 ↔ x = .ok none ∨ ∃ e kind, x = .error e ∧ e.kind? = some kind) := by
  refine ⟨exists_price validates, fun x prices => ?_⟩
  obtain ⟨reply, replied, answers⟩ := exists_reply validates prices
  rw [respond_eq isPath isPost fits]
  exact ⟨reply, replied, answers, answers.status⟩

/-- Asks for the deposit of one unit of each asset to a pool of one of each. -/
def depositOfOnes : Request where
  method := "POST"
  path := "/quote/deposit"
  body := "\x7b\"pool\":\x7b\"amp\":\x7b\"initialAmpFactor\":1,\"targetAmpFactor\":1\x7d,\"fees\":\x7b\x7d," ++
    "\"reserves\":\x7b\"reserveA\":1,\"reserveB\":1,\"poolTokenSupply\":2\x7d\x7d," ++
    "\"amountA\":1,\"amountB\":1\x7d"
  contentType := some "application/json"
  contentLength := some "152"
  clock := 0

def blankFees : Fees :=
  let none : Rate := ⟨.zero, .zero⟩
  ⟨none, none, none, none⟩

def onesToOnes : DepositRequest :=
  ⟨⟨⟨⟨1, 1, 0, 0⟩, .fields blankFees, Pool.ones⟩, none⟩, .one, .one, .zero⟩

theorem readAs_onesToOnes : Inquiry.ReadAs depositOfOnes DepositRequest.read onesToOnes := by
  decide +kernel

/-- The deposit is answered with the two pool tokens that it mints. -/
theorem respond_answers_deposit_of_ones :
    announcesTooMuch depositOfOnes.contentLength = .ok false ∧
      (Inquiry.deposit onesToOnes).Validates depositOfOnes ∧
      (respond depositOfOnes).outcome = .ok (.json 200 (.obj [("mintAmount", "2"),
        ("reserves", .obj [("reserveA", "2"), ("reserveB", "2"), ("poolTokenSupply", "4")])])) := by
  have fits : announcesTooMuch depositOfOnes.contentLength = .ok false := by decide
  refine ⟨fits, readAs_onesToOnes, ?_⟩
  have ⟨_, answered⟩ :=
    respond_answers depositOfOnes (.deposit onesToOnes) rfl rfl fits readAs_onesToOnes
  have describes : onesToOnes.subject.pool.Describes ⟨Pool.steady, blankFees, Pool.ones⟩ :=
    ⟨⟨rfl, rfl, rfl, rfl⟩, .fields blankFees, rfl⟩
  obtain ⟨reply, replied, answers, -⟩ := answered _ (.deposit onesToOnes _ describes)
  rw [replied]
  cases answers with
  | quoted x accepted => rfl

end Service

end PegPool
