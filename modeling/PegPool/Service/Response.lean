import PegPool.Quote
import PegPool.Service.Request

/-!
# Responses

The five bodies that answer with a quote, and the one that answers with an error.  Amounts are
written as decimal strings, so that readers of numbers as doubles get them whole.
-/

namespace PegPool.Service

def natural : Reader Nat := fun p j =>
  (amount p j).map (·.val)

def naturalJson (n : Nat) : Json :=
  .str (toString n)

def reservesKey : Key := ⟨"reserves", "reserves"⟩
def mintedKey : Key := ⟨"mintAmount", "mint_amount"⟩
def amountKey : Key := ⟨"amount", "amount"⟩
def feeKey : Key := ⟨"fee", "fee"⟩
def adminFeeKey : Key := ⟨"adminFee", "admin_fee"⟩

structure FoundResponse where
  ramp : RampBody
  minted : Nat
  reserves : Reserves
deriving DecidableEq, Repr

namespace FoundResponse

def title : String := "InitializeResponse"

def read : Reader FoundResponse :=
  body title fun r =>
    FoundResponse.mk <$> r.required PoolBody.rampKey RampBody.read <*> r.required mintedKey natural
      <*> r.required reservesKey ReservesBody.read

def toJson (a : FoundResponse) : Json :=
  .obj [(PoolBody.rampKey.name, a.ramp.toJson), (mintedKey.name, naturalJson a.minted),
    (reservesKey.name, ReservesBody.toJson a.reserves)]

def ofQuote (q : Quote.Founding) : FoundResponse :=
  ⟨.ofRamp q.ramp, q.minted, q.reserves⟩

end FoundResponse

structure SwapResponse where
  direction : Direction
  amountIn : Nat
  amountSwapped : Nat
  fee : Nat
  adminFee : Nat
  reserves : Reserves
deriving DecidableEq, Repr

namespace SwapResponse

def title : String := "SwapResponse"

def amountSwappedKey : Key := ⟨"amountSwapped", "amount_swapped"⟩

def read : Reader SwapResponse :=
  body title fun r =>
    SwapResponse.mk <$> r.required SwapRequest.directionKey Service.direction
      <*> r.required SwapRequest.amountInKey natural <*> r.required amountSwappedKey natural
      <*> r.required feeKey natural <*> r.required adminFeeKey natural
      <*> r.required reservesKey ReservesBody.read

def toJson (a : SwapResponse) : Json :=
  .obj [(SwapRequest.directionKey.name, .str a.direction.label),
    (SwapRequest.amountInKey.name, naturalJson a.amountIn),
    (amountSwappedKey.name, naturalJson a.amountSwapped), (feeKey.name, naturalJson a.fee),
    (adminFeeKey.name, naturalJson a.adminFee),
    (reservesKey.name, ReservesBody.toJson a.reserves)]

/-- The response to a quote; what is paid in is positive in a quote. -/
def ofQuote (q : Quote.Swap) : SwapResponse :=
  ⟨q.direction, q.amountIn.toNat, q.amounts.amountSwapped, q.amounts.fee, q.amounts.adminFee,
    q.newReserves⟩

end SwapResponse

structure DepositResponse where
  minted : Nat
  reserves : Reserves
deriving DecidableEq, Repr

namespace DepositResponse

def title : String := "DepositResponse"

def read : Reader DepositResponse :=
  body title fun r =>
    DepositResponse.mk <$> r.required mintedKey natural
      <*> r.required reservesKey ReservesBody.read

def toJson (a : DepositResponse) : Json :=
  .obj [(mintedKey.name, naturalJson a.minted),
    (reservesKey.name, ReservesBody.toJson a.reserves)]

def ofQuote (q : Quote.Deposit) : DepositResponse :=
  ⟨q.minted, q.newReserves⟩

end DepositResponse

namespace ShareBody

def title : String := "WithdrawAmountsModel"

def read : Reader Exchange.ShareAmounts :=
  body title fun r =>
    Exchange.ShareAmounts.mk <$> r.required amountKey natural <*> r.required feeKey natural
      <*> r.required adminFeeKey natural

def toJson (s : Exchange.ShareAmounts) : Json :=
  .obj [(amountKey.name, naturalJson s.amount), (feeKey.name, naturalJson s.fee),
    (adminFeeKey.name, naturalJson s.adminFee)]

end ShareBody

structure WithdrawResponse where
  burned : Nat
  a : Exchange.ShareAmounts
  b : Exchange.ShareAmounts
  reserves : Reserves
deriving DecidableEq, Repr

namespace WithdrawResponse

def title : String := "WithdrawResponse"

def aKey : Key := ⟨"tokenA", "token_a"⟩
def bKey : Key := ⟨"tokenB", "token_b"⟩

def read : Reader WithdrawResponse :=
  body title fun r =>
    WithdrawResponse.mk <$> r.required burnedKey natural <*> r.required aKey ShareBody.read
      <*> r.required bKey ShareBody.read <*> r.required reservesKey ReservesBody.read

def toJson (w : WithdrawResponse) : Json :=
  .obj [(burnedKey.name, naturalJson w.burned), (aKey.name, ShareBody.toJson w.a),
    (bKey.name, ShareBody.toJson w.b), (reservesKey.name, ReservesBody.toJson w.reserves)]

/-- The response to a quote; what is burned is positive in a quote. -/
def ofQuote (q : Quote.Withdrawal) : WithdrawResponse :=
  ⟨q.burned.toNat, q.a, q.b, q.newReserves⟩

end WithdrawResponse

structure WithdrawOneResponse where
  base : Asset
  burned : Nat
  amount : Nat
  tradeFee : Nat
  withdrawFee : Nat
  adminFee : Nat
  reserves : Reserves
deriving DecidableEq, Repr

namespace WithdrawOneResponse

def title : String := "WithdrawOneResponse"

def tradeFeeKey : Key := ⟨"tradeFee", "trade_fee"⟩
def withdrawFeeKey : Key := ⟨"withdrawFee", "withdraw_fee"⟩

def read : Reader WithdrawOneResponse :=
  body title fun r =>
    WithdrawOneResponse.mk <$> r.required WithdrawOneRequest.baseKey asset
      <*> r.required burnedKey natural <*> r.required amountKey natural
      <*> r.required tradeFeeKey natural <*> r.required withdrawFeeKey natural
      <*> r.required adminFeeKey natural <*> r.required reservesKey ReservesBody.read

def toJson (w : WithdrawOneResponse) : Json :=
  .obj [(WithdrawOneRequest.baseKey.name, .str w.base.label),
    (burnedKey.name, naturalJson w.burned), (amountKey.name, naturalJson w.amount),
    (tradeFeeKey.name, naturalJson w.tradeFee), (withdrawFeeKey.name, naturalJson w.withdrawFee),
    (adminFeeKey.name, naturalJson w.adminFee),
    (reservesKey.name, ReservesBody.toJson w.reserves)]

/-- The response to a quote; what is burned is positive in a quote. -/
def ofQuote (q : Quote.OneWithdrawal) : WithdrawOneResponse :=
  ⟨q.base, q.burned.toNat, q.amount, q.tradeFee, q.withdrawFee, q.adminFee, q.newReserves⟩

end WithdrawOneResponse

structure ErrorResponse where
  error : JsonString
  detail : JsonString
  expected : Option Nat
  actual : Option Nat
deriving DecidableEq, Repr

namespace ErrorResponse

def title : String := "ErrorResponse"

def errorKey : Key := ⟨"error", "error"⟩
def detailKey : Key := ⟨"detail", "detail"⟩
def expectedKey : Key := ⟨"expected", "expected"⟩
def actualKey : Key := ⟨"actual", "actual"⟩

def read : Reader ErrorResponse :=
  body title fun r =>
    ErrorResponse.mk <$> r.required errorKey text <*> r.required detailKey text
      <*> r.optional expectedKey (nullable natural) none
      <*> r.optional actualKey (nullable natural) none

def nullableJson : Option Nat → Json
  | some n => naturalJson n
  | none => .null

def toJson (e : ErrorResponse) : Json :=
  .obj [(errorKey.name, .str e.error), (detailKey.name, .str e.detail),
    (expectedKey.name, nullableJson e.expected), (actualKey.name, nullableJson e.actual)]

def sparseMember (key : Key) : Option Nat → Json.Members
  | some n => [(key.name, naturalJson n)]
  | none => []

/-- Writes the response without the fields that are null. -/
def toSparseJson (e : ErrorResponse) : Json :=
  .obj ((errorKey.name, .str e.error) :: (detailKey.name, .str e.detail) ::
    (sparseMember expectedKey e.expected ++ sparseMember actualKey e.actual))

end ErrorResponse

end PegPool.Service
