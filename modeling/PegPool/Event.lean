import PegPool.Asset
import PegPool.Json

/-!
# Events

What happened while a result was computed, as plain data.  An event has a name, a level and fields
(`Event.name`, `Event.level`, `Event.fields`); whoever runs a computation decides where its events
go.
-/

namespace PegPool

inductive Level where
  | debug
  | info
  | warning
  | error
deriving DecidableEq, Repr

def Level.name : Level → String
  | debug => "debug"
  | info => "info"
  | warning => "warning"
  | error => "error"

/-- One of the five pool operations, with the arguments that its failure is reported with. -/
inductive Operation where
  | create (amp reserveA reserveB : Int)
  | swap (amountIn : Int) (direction : Direction)
  | deposit (amountA amountB : Int)
  | withdraw (burned : Int)
  | withdrawOne (burned : Int) (base : Asset)
deriving DecidableEq, Repr

namespace Operation

def name : Operation → String
  | create .. => "initialize"
  | swap .. => "swap"
  | deposit .. => "deposit"
  | withdraw .. => "withdraw"
  | withdrawOne .. => "withdraw_one"

def fields : Operation → Json.Members
  | create amp reserveA reserveB =>
      [("reserve_a", reserveA), ("reserve_b", reserveB), ("amp", amp)]
  | swap amountIn direction => [("amount_in", amountIn), ("direction", direction.label)]
  | deposit amountA amountB => [("amount_a", amountA), ("amount_b", amountB)]
  | withdraw burned => [("pool_token_amount", burned)]
  | withdrawOne burned base => [("pool_token_amount", burned), ("base", base.label)]

end Operation

/-- A withdrawal in one asset that a probe examines. -/
structure Burn where
  amp : Int
  share : Int
  supply : Int
  /-- The reserve of the asset paid out. -/
  base : Int
  quote : Int
deriving DecidableEq, Repr

def Burn.fields (b : Burn) : Json.Members :=
  [("amp", b.amp), ("share", b.share), ("supply", b.supply), ("base", b.base), ("quote", b.quote)]

/-- Something that happened on the way to a result. -/
inductive Event where
  /-- The iteration for the invariant was cut off at `d`. -/
  | invariantUnsettled (amountA amountB amp : Int) (cap d : Nat)
  /-- The iteration for a reserve was cut off at `y`. -/
  | reserveUnsettled (x d amp : Int) (cap y : Nat)
  | rampStarted (initial target start stop : Int)
  | rampStopped (amp now : Int)
  | calculationFailed (operation : Operation)
  /-- A result is below what the caller asked for. -/
  | slippageExceeded (expected actual : Int)
  /-- A pool was quoted its first deposit. -/
  | poolInitialized (amp reserveA reserveB minted : Int)
  | swapQuoted (direction : Direction) (amountIn amountSwapped fee adminFee now : Int)
  | depositQuoted (amountA amountB minted now : Int)
  | withdrawQuoted (burned amountA amountB feeA feeB : Int)
  | withdrawOneQuoted (base : Asset) (burned amount tradeFee withdrawFee now : Int)
  /-- A request asked for nothing to be moved. -/
  | nothingQuoted (operation : String)
  | quoteRejected (path kind : String)
  | burnFailed (burn : Burn)
  /-- A probed withdrawal takes the whole reserve. -/
  | reserveDrained (dy : Int) (burn : Burn)
  /-- A probed withdrawal lowers the invariant per remaining share. -/
  | sharesDiluted (before after dy : Int) (burn : Burn)
  /-- A probed withdrawal pays less than a smaller one. -/
  | payoutNotMonotone (dy smaller : Int) (burn : Burn)
  /-- A series of probes came to its end. -/
  | probesCompleted (seed cases failures violations : Int)
deriving DecidableEq, Repr

namespace Event

def name : Event → String
  | invariantUnsettled .. => "stable_invariant_did_not_converge"
  | reserveUnsettled .. => "stable_y_did_not_converge"
  | rampStarted .. => "ramp_started"
  | rampStopped .. => "ramp_stopped"
  | calculationFailed .. => "calculation_failed"
  | slippageExceeded .. => "slippage_exceeded"
  | poolInitialized .. => "pool_initialized"
  | swapQuoted .. => "swap_quoted"
  | depositQuoted .. => "deposit_quoted"
  | withdrawQuoted .. => "withdraw_quoted"
  | withdrawOneQuoted .. => "withdraw_one_quoted"
  | nothingQuoted .. => "noop_quote"
  | quoteRejected .. => "quote_rejected"
  | burnFailed .. => "withdraw_one_failed"
  | reserveDrained .. => "base_reserve_drained"
  | sharesDiluted .. => "remaining_shares_diluted"
  | payoutNotMonotone .. => "payout_not_monotonic"
  | probesCompleted .. => "fuzz_complete"

def level : Event → Level
  | invariantUnsettled .. | reserveUnsettled .. | calculationFailed .. | slippageExceeded .. =>
      .warning
  | rampStarted .. | rampStopped .. | poolInitialized .. | quoteRejected .. | probesCompleted .. =>
      .info
  | swapQuoted .. | depositQuoted .. | withdrawQuoted .. | withdrawOneQuoted .. | nothingQuoted ..
  | burnFailed .. => .debug
  | reserveDrained .. | sharesDiluted .. | payoutNotMonotone .. => .error

def fields : Event → Json.Members
  | invariantUnsettled amountA amountB amp cap d =>
      [("amount_a", amountA), ("amount_b", amountB), ("amp_factor", amp), ("iterations", cap),
        ("d", d)]
  | reserveUnsettled x d amp cap y =>
      [("x", x), ("d", d), ("amp_factor", amp), ("iterations", cap), ("y", y)]
  | rampStarted initial target start stop =>
      [("initial_amp", initial), ("target_amp", target), ("start_ramp_ts", start),
        ("stop_ramp_ts", stop)]
  | rampStopped amp now => [("amp", amp), ("ts", now)]
  | calculationFailed operation => ("operation", operation.name) :: operation.fields
  | slippageExceeded expected actual => [("expected", expected), ("actual", actual)]
  | poolInitialized amp reserveA reserveB minted =>
      [("amp", amp), ("reserve_a", reserveA), ("reserve_b", reserveB), ("mint_amount", minted)]
  | swapQuoted direction amountIn amountSwapped fee adminFee now =>
      [("direction", direction.label), ("amount_in", amountIn), ("amount_swapped", amountSwapped),
        ("fee", fee), ("admin_fee", adminFee), ("ts", now)]
  | depositQuoted amountA amountB minted now =>
      [("amount_a", amountA), ("amount_b", amountB), ("mint_amount", minted), ("ts", now)]
  | withdrawQuoted burned amountA amountB feeA feeB =>
      [("pool_token_amount", burned), ("amount_a", amountA), ("amount_b", amountB),
        ("fee_a", feeA), ("fee_b", feeB)]
  | withdrawOneQuoted base burned amount tradeFee withdrawFee now =>
      [("base", base.label), ("pool_token_amount", burned), ("amount", amount),
        ("trade_fee", tradeFee), ("withdraw_fee", withdrawFee), ("ts", now)]
  | nothingQuoted operation => [("operation", operation)]
  | quoteRejected path kind => [("path", path), ("error", kind)]
  | burnFailed burn => burn.fields
  | reserveDrained dy burn => ("dy", dy) :: burn.fields
  | sharesDiluted before after dy burn =>
      ("d_before", before) :: ("d_after", after) :: ("dy", dy) :: burn.fields
  | payoutNotMonotone dy smaller burn => ("dy", dy) :: ("smaller_dy", smaller) :: burn.fields
  | probesCompleted seed cases failures violations =>
      [("seed", seed), ("cases", cases), ("failed_calculations", failures),
        ("violations", violations)]

/-- The event as a value: its name and level, then what it tells. -/
def toJson (e : Event) : Json :=
  .obj (("event", .str e.name) :: ("log_level", .str e.level.name) :: e.fields)

end Event

end PegPool
