import PegPool.Amount

/-!
# Fees

A fee is a share of an amount, `⌊amount · numerator / denominator⌋`, with the product held in a
checked word and the result in 64 bits.  A schedule has four rates: a trade and a withdraw fee, and
for each the share of it that goes to the administrator.  Any four pairs of amounts make a schedule;
a zero denominator only makes the fee that uses it fail.
-/

namespace PegPool

/-- `⌊value · numerator / denominator⌋` in 64 bits. -/
def mulDiv (value numerator denominator : Operand) : Except Fault Nat := do
  let v ← Word.read value
  let n ← Word.read numerator
  let product ← v.mul n
  let d ← Word.read denominator
  (← product.div d).narrow

/-- A fraction of an amount. -/
structure Rate where
  numerator : Amount
  denominator : Amount
deriving DecidableEq, Repr

def Rate.share (r : Rate) (amount : Operand) : Except Fault Nat :=
  mulDiv amount r.numerator r.denominator

structure Fees where
  adminTrade : Rate
  adminWithdraw : Rate
  /-- The fee on what a swap pays out. -/
  trade : Rate
  /-- The fee on what a withdrawal pays out. -/
  withdraw : Rate
deriving DecidableEq, Repr

namespace Fees

def readRate (value : String → Operand) (name : String) : Except FieldError Rate := do
  let numerator ← Amount.read (name ++ "_numerator") (value (name ++ "_numerator"))
  let denominator ← Amount.read (name ++ "_denominator") (value (name ++ "_denominator"))
  return ⟨numerator, denominator⟩

/-- Reads a schedule from the values of its eight fields, in the order in which they are stored. -/
def read (value : String → Operand) : Except FieldError Fees := do
  let adminTrade ← readRate value "admin_trade_fee"
  let adminWithdraw ← readRate value "admin_withdraw_fee"
  let trade ← readRate value "trade_fee"
  let withdraw ← readRate value "withdraw_fee"
  return ⟨adminTrade, adminWithdraw, trade, withdraw⟩

/-- The eight fields by name, in the order in which they are stored. -/
def fields (f : Fees) : List (String × Amount) :=
  [("admin_trade_fee_numerator", f.adminTrade.numerator),
    ("admin_trade_fee_denominator", f.adminTrade.denominator),
    ("admin_withdraw_fee_numerator", f.adminWithdraw.numerator),
    ("admin_withdraw_fee_denominator", f.adminWithdraw.denominator),
    ("trade_fee_numerator", f.trade.numerator),
    ("trade_fee_denominator", f.trade.denominator),
    ("withdraw_fee_numerator", f.withdraw.numerator),
    ("withdraw_fee_denominator", f.withdraw.denominator)]

def fieldNames : List String :=
  ["admin_trade_fee_numerator", "admin_trade_fee_denominator", "admin_withdraw_fee_numerator",
    "admin_withdraw_fee_denominator", "trade_fee_numerator", "trade_fee_denominator",
    "withdraw_fee_numerator", "withdraw_fee_denominator"]

def zero : Fees :=
  let r : Rate := ⟨.zero, .zero⟩
  ⟨r, r, r, r⟩

def tradeFee (f : Fees) (amount : Operand) : Except Fault Nat :=
  f.trade.share amount

def withdrawFee (f : Fees) (amount : Operand) : Except Fault Nat :=
  f.withdraw.share amount

def adminTradeFee (f : Fees) (fee : Operand) : Except Fault Nat :=
  f.adminTrade.share fee

def adminWithdrawFee (f : Fees) (fee : Operand) : Except Fault Nat :=
  f.adminWithdraw.share fee

/-- The trade fee on how far one of `assets` reserves is from balance.  The numerator is scaled by
`n / (4 (n - 1))`, so that the fee on the deviations of all reserves adds up to about what a swap
with the same effect would pay. -/
def imbalanceFee (f : Fees) (assets : Int) (amount : Operand) : Except Fault Nat := do
  if assets < 2 then throw .fewAssets
  let scaled ← mulDiv f.trade.numerator assets ((assets - 1) * 4 : Int)
  mulDiv amount scaled f.trade.denominator

end Fees

def assetCount : Nat := 2

end PegPool
