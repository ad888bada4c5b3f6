import PegPool.Fees
import PegPool.Asset
import PegPool.Ramp

/-!
# Pools

A pool holds reserves of two assets and has given out a supply of pool tokens against them.  What an
operation costs depends on the course of its coefficient and on its fee schedule.
-/

namespace PegPool

@[ext]
structure Reserves where
  a : Amount
  b : Amount
  supply : Amount
deriving DecidableEq, Repr

namespace Reserves

/-- The name under which a reserve is stored. -/
def field : Asset → String
  | .a => "reserve_a"
  | .b => "reserve_b"

def read (a b supply : Operand) : Except FieldError Reserves := do
  let a ← Amount.read (field .a) a
  let b ← Amount.read (field .b) b
  let supply ← Amount.read "pool_token_supply" supply
  return ⟨a, b, supply⟩

def get (r : Reserves) : Asset → Amount
  | .a => r.a
  | .b => r.b

def set (r : Reserves) (asset : Asset) (value : Int) : Except FieldError Reserves :=
  match asset with
  | .a => read value r.b r.supply
  | .b => read r.a value r.supply

def setSupply (r : Reserves) (supply : Int) : Except FieldError Reserves :=
  read r.a r.b supply

/-- The reserves with the assets exchanged. -/
def swapped (r : Reserves) : Reserves := ⟨r.b, r.a, r.supply⟩

end Reserves

structure Pool where
  /-- The course of the coefficient. -/
  ramp : Ramp
  fees : Fees
  reserves : Reserves
deriving DecidableEq, Repr

end PegPool
