import PegPool.Word

/-!
# Stored amounts

Reserves, supplies and the terms of fee rates are stored in 64 bits.  An `Amount` is a number that
fits, so a record that holds amounts needs no further check; `Amount.read` is how a loose value
becomes one, and its error names the field that does not.
-/

namespace PegPool

/-- A natural number of at most 64 bits. -/
@[ext]
structure Amount where
  val : Nat
  lt : val < 1 <<< 64
deriving DecidableEq

/-- Why a value cannot be stored in a field. -/
inductive FieldError where
  | notInteger (field : String)
  /-- The integer is negative or needs more than 64 bits. -/
  | unfit (field : String) (value : Int)
deriving DecidableEq, Repr

def FieldError.message : FieldError → String
  | notInteger field => s!"{field} must be an int"
  | unfit field value => Text.showing [value] s!"{field} must fit in u64: {value}"

namespace Amount

instance : Coe Amount Nat := ⟨Amount.val⟩
instance : Coe Amount Int := ⟨fun a => a.val⟩
instance : Coe Amount Operand := ⟨fun a => .int a.val⟩
instance : Repr Amount := ⟨fun a prec => reprPrec a.val prec⟩

def zero : Amount := ⟨0, by decide⟩

instance : Inhabited Amount := ⟨zero⟩

def ofNat? (n : Nat) : Option Amount :=
  if h : n < 1 <<< 64 then some ⟨n, h⟩ else none

def read (field : String) : Operand → Except FieldError Amount
  | .foreign _ => .error (.notInteger field)
  | .int z =>
      if z < 0 then .error (.unfit field z)
      else match ofNat? z.toNat with
        | some a => .ok a
        | none => .error (.unfit field z)

end Amount

end PegPool
