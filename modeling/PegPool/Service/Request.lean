import PegPool.Service.Pool

/-!
# Requests

The five bodies that ask for a quote. All but the first describe the pool that is asked about and
may say at which time; an amount that may be left out is then zero.
-/

namespace PegPool.Service

def poolKey : Key := ⟨"pool", "pool"⟩
def nowKey : Key := ⟨"now", "now"⟩
def burnedKey : Key := ⟨"poolTokenAmount", "pool_token_amount"⟩

/-- The pool that a request asks about, and the time, if it says one. -/
structure Subject where
  pool : PoolBody
  now : Option Int
deriving DecidableEq, Repr

namespace Subject

def read (r : Record) : Checked Subject :=
  Subject.mk <$> r.required poolKey PoolBody.read
    <*> r.optional nowKey (nullable (integerFrom 0)) none

def nowJson (s : Subject) : Json :=
  match s.now with
  | some z => .int z
  | none => .null

/-- Writes the two fields and others behind them. -/
def toJsonWith (s : Subject) (others : Json.Members) : Json :=
  .obj ((poolKey.name, s.pool.toJson) :: (nowKey.name, s.nowJson) :: others)

end Subject

/-- Asks for the first deposit into a new pool. -/
structure FoundRequest where
  amp : Int
  reserveA : Amount
  reserveB : Amount
deriving DecidableEq, Repr

namespace FoundRequest

def title : String := "InitializeRequest"

def ampKey : Key := ⟨"ampFactor", "amp_factor"⟩

def read : Reader FoundRequest :=
  body title fun r =>
    FoundRequest.mk <$> r.required ampKey integer <*> r.required ReservesBody.aKey amount
      <*> r.required ReservesBody.bKey amount

def toJson (q : FoundRequest) : Json :=
  .obj [(ampKey.name, q.amp), (ReservesBody.aKey.name, q.reserveA.toJson),
    (ReservesBody.bKey.name, q.reserveB.toJson)]

end FoundRequest

structure SwapRequest where
  subject : Subject
  amountIn : Amount
  minimum : Amount
  direction : Direction
deriving DecidableEq, Repr

namespace SwapRequest

def title : String := "SwapRequest"

def amountInKey : Key := ⟨"amountIn", "amount_in"⟩
def minimumKey : Key := ⟨"minimumAmountOut", "minimum_amount_out"⟩
def directionKey : Key := ⟨"direction", "direction"⟩

def read : Reader SwapRequest :=
  body title fun r =>
    SwapRequest.mk <$> Subject.read r <*> r.required amountInKey amount
      <*> r.optional minimumKey amount .zero
      <*> r.required directionKey Service.direction

def toJson (q : SwapRequest) : Json :=
  q.subject.toJsonWith [(amountInKey.name, q.amountIn.toJson),
    (minimumKey.name, q.minimum.toJson), (directionKey.name, .str q.direction.label)]

end SwapRequest

structure DepositRequest where
  subject : Subject
  amountA : Amount
  amountB : Amount
  minimum : Amount
deriving DecidableEq, Repr

namespace DepositRequest

def title : String := "DepositRequest"

def amountAKey : Key := ⟨"amountA", "amount_a"⟩
def amountBKey : Key := ⟨"amountB", "amount_b"⟩
def minimumKey : Key := ⟨"minMintAmount", "min_mint_amount"⟩

def read : Reader DepositRequest :=
  body title fun r =>
    DepositRequest.mk <$> Subject.read r <*> r.optional amountAKey amount .zero
      <*> r.optional amountBKey amount .zero <*> r.optional minimumKey amount .zero

def toJson (q : DepositRequest) : Json :=
  q.subject.toJsonWith [(amountAKey.name, q.amountA.toJson),
    (amountBKey.name, q.amountB.toJson), (minimumKey.name, q.minimum.toJson)]

end DepositRequest

structure WithdrawRequest where
  subject : Subject
  burned : Amount
  minimumA : Amount
  minimumB : Amount
deriving DecidableEq, Repr

namespace WithdrawRequest

def title : String := "WithdrawRequest"

def minimumAKey : Key := ⟨"minimumTokenAAmount", "minimum_token_a_amount"⟩
def minimumBKey : Key := ⟨"minimumTokenBAmount", "minimum_token_b_amount"⟩

def read : Reader WithdrawRequest :=
  body title fun r =>
    WithdrawRequest.mk <$> Subject.read r <*> r.required burnedKey amount
      <*> r.optional minimumAKey amount .zero <*> r.optional minimumBKey amount .zero

def toJson (q : WithdrawRequest) : Json :=
  q.subject.toJsonWith [(burnedKey.name, q.burned.toJson),
    (minimumAKey.name, q.minimumA.toJson), (minimumBKey.name, q.minimumB.toJson)]

end WithdrawRequest

structure WithdrawOneRequest where
  subject : Subject
  burned : Amount
  minimum : Amount
  base : Asset
deriving DecidableEq, Repr

namespace WithdrawOneRequest

def title : String := "WithdrawOneRequest"

def minimumKey : Key := ⟨"minimumTokenAmount", "minimum_token_amount"⟩
def baseKey : Key := ⟨"base", "base"⟩

def read : Reader WithdrawOneRequest :=
  body title fun r =>
    WithdrawOneRequest.mk <$> Subject.read r <*> r.required burnedKey amount
      <*> r.optional minimumKey amount .zero <*> r.required baseKey asset

def toJson (q : WithdrawOneRequest) : Json :=
  q.subject.toJsonWith [(burnedKey.name, q.burned.toJson),
    (minimumKey.name, q.minimum.toJson), (baseKey.name, .str q.base.label)]

end WithdrawOneRequest

end PegPool.Service
