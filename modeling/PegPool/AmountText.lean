import PegPool.Amount
import PegPool.Json
import PegPool.Text.Numeral

/-!
# Amounts in JSON

An amount travels as a decimal string, and an integer is taken as well.  Whatever numeral a string
holds, the amount is written back in one way: its decimal digits.
-/

namespace PegPool

/-- Why a JSON value is no amount. -/
inductive AmountError where
  /-- The value is neither a string nor an integer. -/
  | wrongKind (kind : String)
  | notNumeral (text : JsonString)
  /-- The number, shown as it was given, is negative. -/
  | negative (shown : String)
  /-- The number, shown as it was given, needs more than 64 bits. -/
  | tooLarge (shown : String)
deriving DecidableEq, Repr

def AmountError.message : AmountError → JsonString
  | wrongKind kind => s!"Uint64 must be string or int, got {kind}"
  | notNumeral text =>
      ("Uint64 must be a decimal integer string: '" : JsonString) ++ text ++ ("'" : JsonString)
  | negative shown => s!"Uint64 cannot be negative: {shown}"
  | tooLarge shown => s!"Uint64 overflow: {shown} > 2^64-1"

namespace Amount

/-- The amount of an integer that was given as `shown`. -/
def ofShown (shown : String) (z : Int) : Except AmountError Amount :=
  if z < 0 then .error (.negative shown)
  else match ofNat? z.toNat with
    | some a => .ok a
    | none => .error (.tooLarge shown)

def ofJson : Json → Except AmountError Amount
  | .int z => ofShown (toString z) z
  | .str (.plain s) => match Text.readNumeral s.toList with
    | .ok z => ofShown s z
    | .error _ => .error (.notNumeral s)
  | .str s => .error (.notNumeral s)
  | j => .error (.wrongKind j.kind)

def decimal (a : Amount) : String :=
  toString a.val

def toJson (a : Amount) : Json :=
  .str a.decimal

end Amount

end PegPool
