import PegPool.Exchange
import PegPool.Pool

/-!
# Quotes

A quote prices one operation against a pool and gives the amounts to move and the reserves
afterwards; moving and storing them is the caller's part. An operation that moves nothing has no
quote and is no error. A failed calculation and a result below the caller's minimum are errors,
each told by an event. An error whose numbers cannot be written fails with that (`QuoteError.told`),
and so does a calculation with such a fault.
-/

namespace PegPool

inductive QuoteError where
  /-- The coefficient of a new pool is outside the policy. -/
  | invalidAmp (amp : Int)
  /-- More pool tokens would be burned than there are. -/
  | overBurn (burned : Int) (supply : Nat)
  /-- A new pool lacks a reserve. -/
  | emptyReserve
  /-- A deposit into a pool without pool tokens. -/
  | depositIntoEmpty
  /-- A withdrawal from a pool without pool tokens. -/
  | withdrawFromEmpty
  | calculation (operation : Operation)
  | slippage (expected actual : Int)
  | unstorable (error : FieldError)
  /-- The coefficient of a new pool is none. -/
  | malformedRamp (fault : RampFault)
  /-- An error or the fault of a calculation has a number that cannot be written. -/
  | unwritable
deriving DecidableEq, Repr

namespace QuoteError

/-- The kind under which a caller is told of the error; the last three are failures of the library and
have none. -/
def kind? : QuoteError → Option String
  | invalidAmp _ | overBurn .. => some "invalid_input"
  | emptyReserve => some "empty_supply"
  | depositIntoEmpty | withdrawFromEmpty => some "empty_pool"
  | calculation _ => some "calculation_failure"
  | slippage .. => some "exceeded_slippage"
  | unstorable _ | malformedRamp _ | unwritable => none

def message : QuoteError → String
  | invalidAmp amp => s!"Invalid amp factor: {amp}"
  | overBurn burned supply => s!"Cannot burn {burned} of {supply} LP tokens"
  | emptyReserve => "Initial reserves must be non-zero"
  | depositIntoEmpty => "Cannot deposit into a pool with no LP supply"
  | withdrawFromEmpty => "Cannot withdraw from a pool with no LP supply"
  | calculation operation => s!"Calculation failed during {operation.name}"
  | slippage expected actual => s!"Slippage exceeded: expected at least {expected}, got {actual}"
  | unstorable error => error.message
  | malformedRamp fault => fault.message
  | unwritable => Text.limitNotice

def numbers : QuoteError → List Int
  | invalidAmp amp => [amp]
  | overBurn burned supply => [burned, supply]
  | slippage expected actual => [expected, actual]
  | _ => []

/-- The error as its caller meets it. -/
def told (e : QuoteError) : QuoteError :=
  if e.numbers.all Text.isWritable then e else unwritable

/-- The error of an operation in which a calculation has a fault. -/
def ofFault (operation : Operation) (fault : Fault) : QuoteError :=
  if fault.isCaught then calculation operation else unwritable

end QuoteError

namespace Quote

/-- The first deposit into a new pool. -/
structure Founding where
  ramp : Ramp
  minted : Nat
  reserves : Reserves
deriving DecidableEq, Repr

structure Swap where
  direction : Direction
  amountIn : Int
  amounts : Exchange.SwapAmounts
  newReserves : Reserves
deriving DecidableEq, Repr

structure Deposit where
  minted : Nat
  newReserves : Reserves
deriving DecidableEq, Repr

structure Withdrawal where
  burned : Int
  a : Exchange.ShareAmounts
  b : Exchange.ShareAmounts
  newReserves : Reserves
deriving DecidableEq, Repr

structure OneWithdrawal where
  base : Asset
  burned : Int
  amount : Nat
  tradeFee : Nat
  withdrawFee : Nat
  /-- The administrator's share of both fees. -/
  adminFee : Nat
  newReserves : Reserves
deriving DecidableEq, Repr

/-! ## Failing -/

/-- A calculation within an operation; its failure is the operation's. -/
def attempt {α : Type} (operation : Operation) (x : Traced Fault α) : Traced QuoteError α :=
  match x.outcome with
  | .ok a => ⟨x.events, .ok a⟩
  | .error fault =>
      ⟨x.events ++ (if fault.isCaught then [.calculationFailed operation] else []),
        .error (.ofFault operation fault)⟩

def compute {α : Type} (operation : Operation) (x : Except Fault α) : Traced QuoteError α :=
  attempt operation (Traced.lift x)

def store (x : Except FieldError Reserves) : Traced QuoteError Reserves :=
  Traced.lift (x.mapError .unstorable)

/-- Refuses an amount below a minimum. -/
def requireAtLeast (minimum actual : Int) : Traced QuoteError Unit :=
  if actual < minimum then
    ⟨[.slippageExceeded minimum actual], .error (QuoteError.slippage minimum actual).told⟩
  else .ok ()

/-! ## The five operations -/

/-- Prices the first deposit into a new pool with a fixed coefficient.  It mints the invariant of
the reserves. -/
def found (cap : Nat) (policy : RampPolicy) (amp reserveA reserveB : Int) :
    Traced QuoteError Founding := do
  if !policy.contains amp then throw (QuoteError.invalidAmp amp).told
  if reserveA = 0 ∨ reserveB = 0 then throw .emptyReserve
  let ramp ← Traced.lift ((Ramp.fixed amp).mapError .malformedRamp)
  let operation := Operation.create amp reserveA reserveB
  let minted ← attempt operation do
    let d ← Curve.invariant cap reserveA reserveB (ramp.factor ramp.start)
    (← Word.ofInt d).narrow
  Traced.log (.poolInitialized amp reserveA reserveB minted)
  let reserves ← store (Reserves.read reserveA reserveB minted)
  return ⟨ramp, minted, reserves⟩

def swap (cap : Nat) (pool : Pool) (now amountIn minimum : Int) (direction : Direction) :
    Traced QuoteError (Option Swap) := do
  if amountIn = 0 then return none
  let r := pool.reserves
  let amounts ← attempt (.swap amountIn direction) <|
    Exchange.swap cap pool.fees (pool.ramp.factor now) amountIn
      (r.get direction.source) (r.get direction.destination)
  requireAtLeast minimum amounts.amountSwapped
  let r ← store (r.set direction.source amounts.newSource)
  let r ← store (r.set direction.destination amounts.newDestination)
  Traced.log (.swapQuoted direction amountIn amounts.amountSwapped amounts.fee amounts.adminFee now)
  return some ⟨direction, amountIn, amounts, r⟩

def deposit (cap : Nat) (pool : Pool) (now amountA amountB minimum : Int) :
    Traced QuoteError (Option Deposit) := do
  if amountA = 0 ∧ amountB = 0 then return none
  let r := pool.reserves
  if r.supply.val = 0 then throw .depositIntoEmpty
  let operation := Operation.deposit amountA amountB
  let minted ← attempt operation <|
    Exchange.mintForDeposit cap pool.fees (pool.ramp.factor now) amountA amountB r.a r.b r.supply
  requireAtLeast minimum minted
  let (a, b, supply) ← compute operation do
    let a ← (← (← Word.ofInt r.a).add amountA).narrow
    let b ← (← (← Word.ofInt r.b).add amountB).narrow
    let supply ← (← (← Word.ofInt r.supply).add minted).narrow
    return (a, b, supply)
  let newReserves ← store (Reserves.read a b supply)
  Traced.log (.depositQuoted amountA amountB minted now)
  return some ⟨minted, newReserves⟩

def requireBurnable (burned : Int) (supply : Nat) : Traced QuoteError Unit :=
  if supply = 0 then .fail .withdrawFromEmpty
  else if (supply : Int) < burned then .fail (QuoteError.overBurn burned supply).told
  else .ok ()

def withdraw (pool : Pool) (burned minimumA minimumB : Int) :
    Traced QuoteError (Option Withdrawal) := do
  if burned = 0 then return none
  let r := pool.reserves
  requireBurnable burned r.supply
  let operation := Operation.withdraw burned
  let (a, b) ← compute operation (Exchange.withdrawBoth pool.fees burned r.supply r.a r.b)
  requireAtLeast minimumA a.amount
  requireAtLeast minimumB b.amount
  let (newA, newB, newSupply) ← compute operation do
    let newA ← (← (← Word.ofInt r.a).sub a.amount).sub a.adminFee
    let newB ← (← (← Word.ofInt r.b).sub b.amount).sub b.adminFee
    let newSupply ← (← Word.ofInt r.supply).sub burned
    return (newA, newB, newSupply)
  let newReserves ← store (Reserves.read newA newB newSupply)
  Traced.log (.withdrawQuoted burned a.amount b.amount a.fee b.fee)
  return some ⟨burned, a, b, newReserves⟩

def withdrawOne (cap : Nat) (pool : Pool) (now burned minimum : Int) (base : Asset) :
    Traced QuoteError (Option OneWithdrawal) := do
  if burned = 0 then return none
  let r := pool.reserves
  requireBurnable burned r.supply
  let operation := Operation.withdrawOne burned base
  let w ← attempt operation <|
    Exchange.withdrawOne cap pool.fees (pool.ramp.factor now) burned r.supply
      (r.get base) (r.get base.other)
  let (withdrawFee, amount) ← compute operation do
    let withdrawFee ← pool.fees.withdrawFee w.dy
    let amount ← (← Word.ofInt w.dy).sub withdrawFee
    return (withdrawFee, amount.val)
  requireAtLeast minimum amount
  let (adminFee, newBase, newSupply) ← compute operation do
    let adminTrade ← pool.fees.adminTradeFee w.fee
    let adminWithdraw ← pool.fees.adminWithdrawFee withdrawFee
    let adminFee ← (← (← Word.ofInt adminTrade).add adminWithdraw).narrow
    let newBase ← (← (← Word.ofInt (r.get base)).sub amount).sub adminFee
    let newSupply ← (← Word.ofInt r.supply).sub burned
    return (adminFee, newBase, newSupply)
  Traced.log (.withdrawOneQuoted base burned amount w.fee withdrawFee now)
  let newReserves ← store (r.set base newBase)
  let newReserves ← store (newReserves.setSupply newSupply)
  return some ⟨base, burned, amount, w.fee, withdrawFee, adminFee, newReserves⟩

end Quote

end PegPool
