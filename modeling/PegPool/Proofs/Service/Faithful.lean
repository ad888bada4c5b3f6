import PegPool.Proofs.Service.FeeForms
import PegPool.Proofs.Service.Responses

/-!
# Readers that take back what they took

A reader is `Faithful` to a way of writing if it takes back, as the same value, whatever it took before.
A body is read back if its fields are and every default passes the check of its own field; so every kind
of body (`BodyKind`) is read back from what is written of it (`faithful_toJson`).
-/

namespace PegPool

namespace Json

variable {k : JsonString} {members : Members}

theorem find?_eq_none (absent : k ∉ members.map Prod.fst) : find? k members = none := by
  induction members with
  | nil => rfl
  | cons m rest inductionHypothesis =>
    rw [List.map_cons, List.mem_cons, not_or] at absent
    rw [find?, if_neg (Ne.symm absent.1), inductionHypothesis absent.2]

end Json

namespace Service

open Checked

/-! ## Fields -/

section Fields

variable {α : Type} {key : Key} {read : Reader α} {write : α → Json}

/-- What the reader took it takes again, as the same value, from what is written of it. -/
def Faithful (read : Reader α) (write : α → Json) : Prop :=
  ∀ p j x, read p j = .good x → Reads read (write x) x

theorem Faithful.required {r r' : Record} {k : String} {x : α} (faithful : Faithful read write)
    (good : r.required key read = .good x) (found : r'.find? key = some (k, write x)) :
    r'.required key read = .good x := by
  obtain ⟨p, j, given⟩ := required_good good
  exact (faithful p j x given).required found

theorem Faithful.optional {r r' : Record} {k : String} {x default : α}
    (faithful : Faithful read write) (readsDefault : Reads read (write default) default)
    (good : r.optional key read default = .good x) (found : r'.find? key = some (k, write x)) :
    r'.optional key read default = .good x := by
  obtain rfl | ⟨p, j, given⟩ := optional_good good
  · exact readsDefault.optional found
  · exact (faithful p j x given).optional found

theorem faithful_amount : Faithful amount Amount.toJson :=
  fun _ _ x _ => reads_amount x

theorem optional_amount {r r' : Record} {k : String} {x : Amount}
    (good : r.optional key amount .zero = .good x) (found : r'.find? key = some (k, x.toJson)) :
    r'.optional key amount .zero = .good x :=
  faithful_amount.optional (reads_amount .zero) good found

theorem faithful_natural : Faithful natural naturalJson := by
  intro p j n good
  obtain ⟨x, -, rfl⟩ := map_eq_good.mp good
  exact reads_natural x.lt

theorem faithful_integer : Faithful integer .int :=
  fun _ _ _ _ _ => rfl

theorem faithful_integerFrom (least : Int) : Faithful (integerFrom least) .int :=
  fun _ _ _ good => reads_integerFrom (integerFrom_good good)

theorem faithful_asset : Faithful asset fun x => .str x.label :=
  fun _ _ x _ => reads_asset x

theorem faithful_direction : Faithful direction fun x => .str x.label :=
  fun _ _ x _ => reads_direction x

theorem faithful_text : Faithful text .str :=
  fun _ _ _ _ _ => rfl

theorem faithful_nullable {writeNull : Option α → Json} (faithful : Faithful read write)
    (notNull : ∀ x, write x ≠ .null) (isNull : writeNull none = .null)
    (isValue : ∀ x, writeNull (some x) = write x) : Faithful (nullable read) writeNull := by
  intro p j x? good
  unfold nullable at good
  split at good
  · cases good
    rw [isNull]
    exact fun _ => rfl
  · obtain ⟨x, given, rfl⟩ := map_eq_good.mp good
    have again := faithful _ _ x given
    rw [isValue]
    intro p'
    unfold nullable
    split
    · exact absurd ‹write x = .null› (notNull x)
    · exact good_map some (again p')

theorem optional_nullable {r r' : Record} {k : String} {x? : Option α} {writeNull : Option α → Json}
    (faithful : Faithful (nullable read) writeNull) (isNull : writeNull none = .null)
    (good : r.optional key (nullable read) none = .good x?)
    (found : r'.find? key = some (k, writeNull x?)) : r'.optional key (nullable read) none = .good x? := by
  refine faithful.optional ?_ good found
  rw [isNull]
  exact fun _ => rfl

theorem faithful_body {title : String} {fields : Record → Checked α} {members : α → Json.Members}
    (again : ∀ r x, fields r = .good x → ∀ p, fields ⟨p, members x⟩ = .good x) :
    Faithful (body title fields) fun x => .obj (members x) := by
  intro p j x good p'
  obtain ⟨r, taken⟩ := body_good good
  exact again r x taken p'

end Fields

/-! ## Bodies that describe a pool -/

theorem RampBody.faithful : Faithful read toJson :=
  fun _ _ _ good => (valid_of_read good).reads_toJson

theorem ReservesBody.faithful : Faithful read toJson :=
  fun _ _ r _ => reads_reserves r

namespace FeesBody

/-- No field is spelled in the second way as another one is in the first. -/
theorem alternatives_apart : ∀ key ∈ fieldKeys, ∀ other ∈ fieldKeys, key.alternative ≠ other.name := by
  decide

/-- An object whose members are the fields in their first spelling. -/
theorem closed_of_names {members : Json.Members}
    (names : members.map Prod.fst = fieldKeys.map fun key => (key.name : JsonString)) :
    Closed fieldKeys members := by
  refine ⟨fun m member => ?_, fun key field _ => .inr (Json.find?_eq_none ?_)⟩
  · have isName := List.mem_map_of_mem (f := Prod.fst) member
    rw [names] at isName
    obtain ⟨key, field, same⟩ := List.mem_map.mp isName
    exact ⟨key, field, .inl same.symm⟩
  · rw [names]
    intro isName
    obtain ⟨other, field', same⟩ := List.mem_map.mp isName
    exact alternatives_apart key field other field' (JsonString.plain.inj same).symm

theorem reads_fieldsJson (fees : Fees) : Reads readFields (fieldsJson fees) fees := by
  intro p
  have rate {r : Record} {keys : Key × Key} (x : Rate)
      (numerator : r.find? keys.1 = some (keys.1.name, x.numerator.toJson))
      (denominator : r.find? keys.2 = some (keys.2.name, x.denominator.toJson)) :
      readRate r keys = .good x :=
    good_seq (good_map Rate.mk ((reads_amount x.numerator).optional numerator))
      ((reads_amount x.denominator).optional denominator)
  refine closedBody_of_closed (closed_of_names rfl) ?_
  refine good_seq (good_seq (good_seq (good_map Fees.mk ?_) ?_) ?_) ?_
  · exact rate fees.adminTrade rfl rfl
  · exact rate fees.adminWithdraw rfl rfl
  · exact rate fees.trade rfl rfl
  · exact rate fees.withdraw rfl rfl

theorem valid_of_readPacked {p : Place} {j : Json} {text : String} (good : readPacked p j = .good text) :
    (packed text).Valid := by
  obtain ⟨r, readField⟩ := closedBody_good good
  obtain ⟨_, _, readValue⟩ := required_good readField
  exact valid_of_packedText readValue

theorem fields_faithful : Faithful readFields fieldsJson :=
  fun _ _ fees _ => reads_fieldsJson fees

theorem packed_faithful : Faithful readPacked packedJson :=
  fun _ _ _ good _ => (valid_of_readPacked good).readPacked

/-- A schedule is read back in the form in which it was given: each form is refused by the reader of
the other one. -/
theorem faithful : Faithful read toJson := by
  intro p j b good p'
  have valid := valid_of_read good
  cases b with
  | fields fees =>
    rw [toJson, FeesBody.read, reads_fieldsJson fees]
  | packed text => exact valid.read_packed

end FeesBody

theorem PoolBody.faithful : Faithful read toJson := by
  refine faithful_body fun r b good p => ?_
  simp only [seq_eq_good, map_eq_good] at good
  obtain ⟨_, reserves, ⟨_, fees, ⟨ramp, readRamp, rfl⟩, readFees, rfl⟩, readReserves, rfl⟩ := good
  refine good_seq (good_seq (good_map PoolBody.mk ?_) ?_) ?_
  · exact RampBody.faithful.required readRamp rfl
  · exact FeesBody.faithful.required readFees rfl
  · exact ReservesBody.faithful.required readReserves rfl

/-! ## Requests -/

theorem FoundRequest.faithful : Faithful read toJson := by
  refine faithful_body fun r q good p => ?_
  simp only [seq_eq_good, map_eq_good] at good
  obtain ⟨_, reserveB, ⟨_, reserveA, ⟨amp, readAmp, rfl⟩, readA, rfl⟩, readB, rfl⟩ := good
  refine good_seq (good_seq (good_map FoundRequest.mk ?_) ?_) ?_
  · exact faithful_integer.required readAmp rfl
  · exact faithful_amount.required readA rfl
  · exact faithful_amount.required readB rfl

namespace Subject

theorem read_members {r : Record} {s : Subject} (good : read r = .good s) (p : Place)
    (others : Json.Members) :
    read ⟨p, (poolKey.name, s.pool.toJson) :: (nowKey.name, s.nowJson) :: others⟩ = .good s := by
  obtain ⟨_, now, readFirst, readNow, rfl⟩ := seq_eq_good.mp good
  obtain ⟨pool, readPool, rfl⟩ := map_eq_good.mp readFirst
  have nowFaithful : Faithful (nullable (integerFrom 0)) fun now => nowJson ⟨pool, now⟩ :=
    faithful_nullable (faithful_integerFrom 0) (fun _ => nofun) rfl fun _ => rfl
  refine good_seq (good_map Subject.mk ?_) ?_
  · exact PoolBody.faithful.required readPool rfl
  · exact optional_nullable nowFaithful rfl readNow rfl

def title : String := "QuoteRequest"

theorem faithful : Faithful (body title read) fun s => s.toJsonWith [] :=
  faithful_body fun _ _ good p => read_members good p []

end Subject

theorem SwapRequest.faithful : Faithful read toJson := by
  refine faithful_body fun r q good p => ?_
  simp only [seq_eq_good, map_eq_good] at good
  obtain ⟨_, direction, ⟨_, minimum, ⟨_, amountIn, ⟨subject, readSubject, rfl⟩, readAmount, rfl⟩,
    readMinimum, rfl⟩, readDirection, rfl⟩ := good
  refine good_seq (good_seq (good_seq (good_map SwapRequest.mk ?_) ?_) ?_) ?_
  · exact Subject.read_members readSubject p _
  · exact faithful_amount.required readAmount rfl
  · exact optional_amount readMinimum rfl
  · exact faithful_direction.required readDirection rfl

theorem DepositRequest.faithful : Faithful read toJson := by
  refine faithful_body fun r q good p => ?_
  simp only [seq_eq_good, map_eq_good] at good
  obtain ⟨_, minimum, ⟨_, amountB, ⟨_, amountA, ⟨subject, readSubject, rfl⟩, readA, rfl⟩, readB, rfl⟩,
    readMinimum, rfl⟩ := good
  refine good_seq (good_seq (good_seq (good_map DepositRequest.mk ?_) ?_) ?_) ?_
  · exact Subject.read_members readSubject p _
  · exact optional_amount readA rfl
  · exact optional_amount readB rfl
  · exact optional_amount readMinimum rfl

theorem WithdrawRequest.faithful : Faithful read toJson := by
  refine faithful_body fun r q good p => ?_
  simp only [seq_eq_good, map_eq_good] at good
  obtain ⟨_, minimumB, ⟨_, minimumA, ⟨_, burned, ⟨subject, readSubject, rfl⟩, readBurned, rfl⟩,
    readMinimumA, rfl⟩, readMinimumB, rfl⟩ := good
  refine good_seq (good_seq (good_seq (good_map WithdrawRequest.mk ?_) ?_) ?_) ?_
  · exact Subject.read_members readSubject p _
  · exact faithful_amount.required readBurned rfl
  · exact optional_amount readMinimumA rfl
  · exact optional_amount readMinimumB rfl

theorem WithdrawOneRequest.faithful : Faithful read toJson := by
  refine faithful_body fun r q good p => ?_
  simp only [seq_eq_good, map_eq_good] at good
  obtain ⟨_, base, ⟨_, minimum, ⟨_, burned, ⟨subject, readSubject, rfl⟩, readBurned, rfl⟩,
    readMinimum, rfl⟩, readBase, rfl⟩ := good
  refine good_seq (good_seq (good_seq (good_map WithdrawOneRequest.mk ?_) ?_) ?_) ?_
  · exact Subject.read_members readSubject p _
  · exact faithful_amount.required readBurned rfl
  · exact optional_amount readMinimum rfl
  · exact faithful_asset.required readBase rfl

/-! ## Responses -/

theorem FoundResponse.faithful : Faithful read toJson := by
  refine faithful_body fun r a good p => ?_
  simp only [seq_eq_good, map_eq_good] at good
  obtain ⟨_, reserves, ⟨_, minted, ⟨ramp, readRamp, rfl⟩, readMinted, rfl⟩, readReserves, rfl⟩ := good
  refine good_seq (good_seq (good_map FoundResponse.mk ?_) ?_) ?_
  · exact RampBody.faithful.required readRamp rfl
  · exact faithful_natural.required readMinted rfl
  · exact ReservesBody.faithful.required readReserves rfl

theorem SwapResponse.faithful : Faithful read toJson := by
  refine faithful_body fun r a good p => ?_
  simp only [seq_eq_good, map_eq_good] at good
  obtain ⟨_, reserves, ⟨_, adminFee, ⟨_, fee, ⟨_, amountSwapped, ⟨_, amountIn, ⟨direction,
    readDirection, rfl⟩, readAmountIn, rfl⟩, readAmountSwapped, rfl⟩, readFee, rfl⟩, readAdminFee, rfl⟩,
    readReserves, rfl⟩ := good
  refine good_seq (good_seq (good_seq (good_seq (good_seq (good_map SwapResponse.mk ?_) ?_) ?_) ?_) ?_) ?_
  · exact faithful_direction.required readDirection rfl
  · exact faithful_natural.required readAmountIn rfl
  · exact faithful_natural.required readAmountSwapped rfl
  · exact faithful_natural.required readFee rfl
  · exact faithful_natural.required readAdminFee rfl
  · exact ReservesBody.faithful.required readReserves rfl

theorem DepositResponse.faithful : Faithful read toJson := by
  refine faithful_body fun r a good p => ?_
  simp only [seq_eq_good, map_eq_good] at good
  obtain ⟨_, reserves, ⟨minted, readMinted, rfl⟩, readReserves, rfl⟩ := good
  refine good_seq (good_map DepositResponse.mk ?_) ?_
  · exact faithful_natural.required readMinted rfl
  · exact ReservesBody.faithful.required readReserves rfl

theorem ShareBody.faithful : Faithful read toJson := by
  refine faithful_body fun r s good p => ?_
  simp only [seq_eq_good, map_eq_good] at good
  obtain ⟨_, adminFee, ⟨_, fee, ⟨amount, readAmount, rfl⟩, readFee, rfl⟩, readAdminFee, rfl⟩ := good
  refine good_seq (good_seq (good_map Exchange.ShareAmounts.mk ?_) ?_) ?_
  · exact faithful_natural.required readAmount rfl
  · exact faithful_natural.required readFee rfl
  · exact faithful_natural.required readAdminFee rfl

theorem WithdrawResponse.faithful : Faithful read toJson := by
  refine faithful_body fun r w good p => ?_
  simp only [seq_eq_good, map_eq_good] at good
  obtain ⟨_, reserves, ⟨_, b, ⟨_, a, ⟨burned, readBurned, rfl⟩, readA, rfl⟩, readB, rfl⟩, readReserves,
    rfl⟩ := good
  refine good_seq (good_seq (good_seq (good_map WithdrawResponse.mk ?_) ?_) ?_) ?_
  · exact faithful_natural.required readBurned rfl
  · exact ShareBody.faithful.required readA rfl
  · exact ShareBody.faithful.required readB rfl
  · exact ReservesBody.faithful.required readReserves rfl

theorem WithdrawOneResponse.faithful : Faithful read toJson := by
  refine faithful_body fun r w good p => ?_
  simp only [seq_eq_good, map_eq_good] at good
  obtain ⟨_, reserves, ⟨_, adminFee, ⟨_, withdrawFee, ⟨_, tradeFee, ⟨_, amount, ⟨_, burned, ⟨base,
    readBase, rfl⟩, readBurned, rfl⟩, readAmount, rfl⟩, readTradeFee, rfl⟩, readWithdrawFee, rfl⟩,
    readAdminFee, rfl⟩, readReserves, rfl⟩ := good
  refine good_seq (good_seq (good_seq (good_seq (good_seq (good_seq
    (good_map WithdrawOneResponse.mk ?_) ?_) ?_) ?_) ?_) ?_) ?_
  · exact faithful_asset.required readBase rfl
  · exact faithful_natural.required readBurned rfl
  · exact faithful_natural.required readAmount rfl
  · exact faithful_natural.required readTradeFee rfl
  · exact faithful_natural.required readWithdrawFee rfl
  · exact faithful_natural.required readAdminFee rfl
  · exact ReservesBody.faithful.required readReserves rfl

theorem ErrorResponse.faithful : Faithful read toJson := by
  refine faithful_body fun r e good p => ?_
  simp only [seq_eq_good, map_eq_good] at good
  obtain ⟨_, actual, ⟨_, expected, ⟨_, detail, ⟨error, readError, rfl⟩, readDetail, rfl⟩, readExpected,
    rfl⟩, readActual, rfl⟩ := good
  have nullableFaithful : Faithful (nullable natural) nullableJson :=
    faithful_nullable faithful_natural (fun _ => nofun) rfl fun _ => rfl
  refine good_seq (good_seq (good_seq (good_map ErrorResponse.mk ?_) ?_) ?_) ?_
  · exact faithful_text.required readError rfl
  · exact faithful_text.required readDetail rfl
  · exact optional_nullable nullableFaithful rfl readExpected rfl
  · exact optional_nullable nullableFaithful rfl readActual rfl

/-! ## Every kind of body -/

inductive BodyKind where
  | feeFields
  | packedFees
  | ramp
  | reserves
  | pool
  | subject
  | found
  | swap
  | deposit
  | withdraw
  | withdrawOne
  | foundResponse
  | swapResponse
  | depositResponse
  | share
  | withdrawResponse
  | withdrawOneResponse
  | error
deriving DecidableEq, Repr

namespace BodyKind

def Body : BodyKind → Type
  | feeFields => Fees
  | packedFees => String
  | ramp => RampBody
  | reserves => Reserves
  | pool => PoolBody
  | subject => Subject
  | found => FoundRequest
  | swap => SwapRequest
  | deposit => DepositRequest
  | withdraw => WithdrawRequest
  | withdrawOne => WithdrawOneRequest
  | foundResponse => FoundResponse
  | swapResponse => SwapResponse
  | depositResponse => DepositResponse
  | share => Exchange.ShareAmounts
  | withdrawResponse => WithdrawResponse
  | withdrawOneResponse => WithdrawOneResponse
  | error => ErrorResponse

def read : (kind : BodyKind) → Reader kind.Body
  | feeFields => FeesBody.readFields
  | packedFees => FeesBody.readPacked
  | ramp => RampBody.read
  | reserves => ReservesBody.read
  | pool => PoolBody.read
  | subject => body Subject.title Subject.read
  | found => FoundRequest.read
  | swap => SwapRequest.read
  | deposit => DepositRequest.read
  | withdraw => WithdrawRequest.read
  | withdrawOne => WithdrawOneRequest.read
  | foundResponse => FoundResponse.read
  | swapResponse => SwapResponse.read
  | depositResponse => DepositResponse.read
  | share => ShareBody.read
  | withdrawResponse => WithdrawResponse.read
  | withdrawOneResponse => WithdrawOneResponse.read
  | error => ErrorResponse.read

def toJson : (kind : BodyKind) → kind.Body → Json
  | feeFields => FeesBody.fieldsJson
  | packedFees => FeesBody.packedJson
  | ramp => RampBody.toJson
  | reserves => ReservesBody.toJson
  | pool => PoolBody.toJson
  | subject => fun s => s.toJsonWith []
  | found => FoundRequest.toJson
  | swap => SwapRequest.toJson
  | deposit => DepositRequest.toJson
  | withdraw => WithdrawRequest.toJson
  | withdrawOne => WithdrawOneRequest.toJson
  | foundResponse => FoundResponse.toJson
  | swapResponse => SwapResponse.toJson
  | depositResponse => DepositResponse.toJson
  | share => ShareBody.toJson
  | withdrawResponse => WithdrawResponse.toJson
  | withdrawOneResponse => WithdrawOneResponse.toJson
  | error => ErrorResponse.toJson

theorem faithful_toJson (kind : BodyKind) : Faithful kind.read kind.toJson := by
  cases kind with
  | feeFields => exact FeesBody.fields_faithful
  | packedFees => exact FeesBody.packed_faithful
  | ramp => exact RampBody.faithful
  | reserves => exact ReservesBody.faithful
  | pool => exact PoolBody.faithful
  | subject => exact Subject.faithful
  | found => exact FoundRequest.faithful
  | swap => exact SwapRequest.faithful
  | deposit => exact DepositRequest.faithful
  | withdraw => exact WithdrawRequest.faithful
  | withdrawOne => exact WithdrawOneRequest.faithful
  | foundResponse => exact FoundResponse.faithful
  | swapResponse => exact SwapResponse.faithful
  | depositResponse => exact DepositResponse.faithful
  | share => exact ShareBody.faithful
  | withdrawResponse => exact WithdrawResponse.faithful
  | withdrawOneResponse => exact WithdrawOneResponse.faithful
  | error => exact ErrorResponse.faithful

end BodyKind

end Service

end PegPool
