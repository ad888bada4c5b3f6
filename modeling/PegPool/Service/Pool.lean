import PegPool.Fees.Record
import PegPool.Hex
import PegPool.Pool
import PegPool.Service.Field

/-!
# Pools in requests

The bodies that describe a pool: its coefficient, its fees and its reserves.  A body is a record of
what was read, `toJson` writes it in the form in which it is read again, and the remaining functions
make the pool's own types of it.

Fees are given field by field or as the hexadecimal text of the stored record.
-/

namespace PegPool.Service

/-! ## The coefficient -/

/-- The course of the coefficient, as it is given. -/
structure RampBody where
  initial : Int
  target : Int
  start : Int
  stop : Int
deriving DecidableEq, Repr

namespace RampBody

def title : String := "AmpModel"

def leastAmp : Int := 1

def mostAmp : Int := 1000000

def initialKey : Key := ⟨"initialAmpFactor", "initial_amp_factor"⟩
def targetKey : Key := ⟨"targetAmpFactor", "target_amp_factor"⟩
def startKey : Key := ⟨"startRampTs", "start_ramp_ts"⟩
def stopKey : Key := ⟨"stopRampTs", "stop_ramp_ts"⟩

def readFields (r : Record) : Checked RampBody :=
  RampBody.mk <$> r.required initialKey (integerBetween leastAmp mostAmp)
    <*> r.required targetKey (integerBetween leastAmp mostAmp)
    <*> r.optional startKey (integerFrom 0) 0
    <*> r.optional stopKey (integerFrom 0) 0

/-- Reads a course that does not end before it begins. -/
def read : Reader RampBody :=
  body title fun r => (readFields r).andThen fun b =>
    if b.stop < b.start then
      refuse r.place (.refused "stopRampTs must not be before startRampTs") (.obj r.members)
    else .good b

def toJson (b : RampBody) : Json :=
  .obj [(initialKey.name, b.initial), (targetKey.name, b.target), (startKey.name, b.start),
    (stopKey.name, b.stop)]

def toRamp (b : RampBody) : Except RampFault Ramp :=
  Ramp.make b.initial b.target b.start b.stop

def ofRamp (r : Ramp) : RampBody :=
  ⟨r.initial, r.target, r.start, r.stop⟩

end RampBody

/-! ## Fees -/

/-- A fee schedule, as it is given. -/
inductive FeesBody where
  | fields (fees : Fees)
  | packed (text : String)
deriving DecidableEq, Repr

namespace FeesBody

def fieldsTitle : String := "FeeFields"

def packedTitle : String := "PackedFees"

def rateKeys (name alternative : String) : Key × Key :=
  (⟨name ++ "Numerator", alternative ++ "_numerator"⟩,
    ⟨name ++ "Denominator", alternative ++ "_denominator"⟩)

def adminTradeKeys : Key × Key := rateKeys "adminTradeFee" "admin_trade_fee"
def adminWithdrawKeys : Key × Key := rateKeys "adminWithdrawFee" "admin_withdraw_fee"
def tradeKeys : Key × Key := rateKeys "tradeFee" "trade_fee"
def withdrawKeys : Key × Key := rateKeys "withdrawFee" "withdraw_fee"
def packedKey : Key := ⟨"packed", "packed"⟩

def fieldKeys : List Key :=
  [adminTradeKeys, adminWithdrawKeys, tradeKeys, withdrawKeys].flatMap fun (n, d) => [n, d]

def readRate (r : Record) (keys : Key × Key) : Checked Rate :=
  Rate.mk <$> r.optional keys.1 amount .zero <*> r.optional keys.2 amount .zero

def readFields : Reader Fees :=
  closedBody fieldsTitle fieldKeys fun r =>
    Fees.mk <$> readRate r adminTradeKeys <*> readRate r adminWithdrawKeys
      <*> readRate r tradeKeys <*> readRate r withdrawKeys

/-- The characters of the text of a record: two for the mark and two for every byte. -/
def packedSize : Nat := 2 + 2 * Fees.recordSize

def isHexText : List Char → Bool
  | '0' :: 'x' :: digits => digits.all fun c => (Hex.digit? c).isSome
  | _ => false

def packedText : Reader String := fun p j =>
  (plainText p j).andThen fun s =>
    if s.length < packedSize then refuse p (.tooShort packedSize) j
    else if packedSize < s.length then refuse p (.tooLong packedSize) j
    else if isHexText s.toList then .good s
    else refuse p (.mismatch "^0x[a-fA-F0-9]*$") j

/-- Reads a schedule that is given as the text of its record. -/
def readPacked : Reader String :=
  closedBody packedTitle [packedKey] fun r => r.required packedKey packedText

/-- Reads a schedule in either form.  What is wrong with both is told of both. -/
def read : Reader FeesBody := fun p j =>
  match readFields (p.member fieldsTitle) j with
  | .good fees => .good (.fields fees)
  | .bad issues => match readPacked (p.member packedTitle) j with
    | .good s => .good (.packed s)
    | .bad more => .bad (issues ++ more)

def rateMembers (keys : Key × Key) (r : Rate) : Json.Members :=
  [(keys.1.name, r.numerator.toJson), (keys.2.name, r.denominator.toJson)]

def fieldsJson (f : Fees) : Json :=
  .obj (rateMembers adminTradeKeys f.adminTrade ++ rateMembers adminWithdrawKeys f.adminWithdraw ++
    rateMembers tradeKeys f.trade ++ rateMembers withdrawKeys f.withdraw)

def packedJson (s : String) : Json :=
  .obj [(packedKey.name, .str s)]

def toJson : FeesBody → Json
  | fields f => fieldsJson f
  | packed s => packedJson s

def unpackText (s : String) : Except Fees.RecordError Fees :=
  Fees.unpack ((Hex.decode? (s.toList.drop 2)).getD [])

def toFees : FeesBody → Except Fees.RecordError Fees
  | fields f => .ok f
  | packed s => unpackText s

end FeesBody

/-! ## Reserves -/

namespace ReservesBody

def title : String := "ReservesModel"

def aKey : Key := ⟨"reserveA", "reserve_a"⟩
def bKey : Key := ⟨"reserveB", "reserve_b"⟩
def supplyKey : Key := ⟨"poolTokenSupply", "pool_token_supply"⟩

/-- Reads reserves; a supply that is not there is zero. -/
def read : Reader Reserves :=
  body title fun r =>
    Reserves.mk <$> r.required aKey amount <*> r.required bKey amount
      <*> r.optional supplyKey amount .zero

def toJson (r : Reserves) : Json :=
  .obj [(aKey.name, r.a.toJson), (bKey.name, r.b.toJson), (supplyKey.name, r.supply.toJson)]

end ReservesBody

/-! ## The whole pool -/

/-- A pool, as it is given. -/
structure PoolBody where
  ramp : RampBody
  fees : FeesBody
  reserves : Reserves
deriving DecidableEq, Repr

/-- Why a body describes no pool; a body that was read always does. -/
inductive PoolFault where
  | ramp (fault : RampFault)
  | fees (error : Fees.RecordError)
deriving DecidableEq, Repr

def PoolFault.message : PoolFault → String
  | ramp fault => fault.message
  | fees error => error.message

namespace PoolBody

def title : String := "PoolModel"

def rampKey : Key := ⟨"amp", "amp"⟩
def feesKey : Key := ⟨"fees", "fees"⟩
def reservesKey : Key := ⟨"reserves", "reserves"⟩

def read : Reader PoolBody :=
  body title fun r =>
    PoolBody.mk <$> r.required rampKey RampBody.read <*> r.required feesKey FeesBody.read
      <*> r.required reservesKey ReservesBody.read

def toJson (b : PoolBody) : Json :=
  .obj [(rampKey.name, b.ramp.toJson), (feesKey.name, b.fees.toJson),
    (reservesKey.name, ReservesBody.toJson b.reserves)]

def toPool (b : PoolBody) : Except PoolFault Pool := do
  let ramp ← b.ramp.toRamp.mapError .ramp
  let fees ← b.fees.toFees.mapError .fees
  return ⟨ramp, fees, b.reserves⟩

end PoolBody

end PegPool.Service
