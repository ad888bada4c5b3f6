import PegPool.Binary64
import PegPool.Word

/-!
# A register of checked words

A `Register.Step` applies one operation to the word in a register and a loose operand. A step whose
answer is a word puts it into the register, any other answer leaves the register alone, and so does
an error (`Register.Step.after`).

An operand may be a truth value, which counts as zero or one and is shown as it was given, or a
double. Arithmetic with a double has no word as its result, so it is refused, but only after the
checks that come first for any operand: division by zero, a negative difference, a value beyond the
width.
-/

namespace PegPool.Register

/-- A value that an operation is given. -/
inductive Value where
  | int (z : Int)
  | flag (b : Bool)
  | word (w : Word)
  | real (x : Binary64)
  /-- A value without arithmetic, known by the name of its kind. -/
  | other (kind : String)
deriving DecidableEq, Repr

/-- The integer that a truth value counts as. -/
def flagValue (b : Bool) : Int :=
  if b then 1 else 0

def flagText (b : Bool) : String :=
  if b then "True" else "False"

def realKind : String := "float"

/-- The value as the argument of a calculation, which takes neither truth values nor doubles. -/
def Value.operand : Value → Operand
  | int z => z
  | word w => w
  | flag _ => .foreign "bool"
  | real _ => .foreign realKind
  | other kind => .foreign kind

inductive Failure where
  /-- A checked operation refused its operands. -/
  | fault (f : Fault)
  /-- A difference with an operand shown as given came out negative. -/
  | underflow (minuend subtrahend difference : String)
  /-- A quotient by zero of an operand shown as given was asked for. -/
  | divisionByZero (dividend : String)
  /-- A double is beyond the width of a word. -/
  | overflow (x : Binary64)
  | notCountable (kind : String)
deriving DecidableEq, Repr

def Failure.message : Failure → String
  | fault f => f.message
  | underflow minuend subtrahend difference =>
      s!"Underflow: {minuend} - {subtrahend} = {difference}"
  | divisionByZero dividend => s!"Division by zero: {dividend} // 0"
  | overflow x => s!"Value exceeds uint256 max: {x.text}"
  | notCountable kind => s!"'{kind}' object cannot be interpreted as an integer"

inductive Answer where
  | word (w : Word)
  | int (z : Int)
  | flag (b : Bool)
  | text (s : String)
  | nothing
deriving DecidableEq, Repr

/-- The operations on the register and an operand. -/
inductive Step where
  | make (x : Value)
  | copy
  | zero
  | ofInt64 (x : Value)
  | add (x : Value)
  | sub (x : Value)
  | subFrom (x : Value)
  | mul (x : Value)
  | div (x : Value)
  | divInto (x : Value)
  | pow (x : Value)
  | dist (x : Value)
  | sub? (x : Value)
  | div? (x : Value)
  | narrow
  | fits64
  | nonzero
  | value
  | decimal
  | display
  | hex
  | eq (x : Value)
  | ne (x : Value)
  | lt (x : Value)
  | le (x : Value)
  | gt (x : Value)
  | ge (x : Value)
  | sameHash (x : Value)
deriving DecidableEq, Repr

def checked (x : Except Fault Word) : Except Failure Answer :=
  match x with
  | .ok w => .ok (.word w)
  | .error f => .error (.fault f)

/-- A checked result that may be missing. -/
def checked? (x : Except Fault (Option Word)) : Except Failure Answer :=
  match x with
  | .ok (some w) => .ok (.word w)
  | .ok none => .ok .nothing
  | .error f => .error (.fault f)

/-- A double is no word. -/
def refuse (kind : String) : Except Failure Answer :=
  .error (.fault (.notInteger kind))

/-- A double as the result of a sum or a product: refused, if it is beyond the width for that. -/
def refuseWide (x : Binary64) : Except Failure Answer :=
  if x.gtInt (1 <<< 256 - 1 : Nat) then .error (.overflow x) else refuse realKind

/-- A double as a difference: refused, if it is negative for that. -/
def refuseDifference (minuend subtrahend : String) (difference : Binary64) :
    Except Failure Answer :=
  if difference.ltInt 0 then .error (.underflow minuend subtrahend difference.text)
  else refuse realKind

/-- Puts the text of a truth value in place of the number it counts as. -/
def shownAs (minuend subtrahend : String) (x : Except Fault Word) : Except Failure Answer :=
  match x with
  | .error (.underflow m s) => .error (.underflow minuend subtrahend (toString (m - s)))
  | x => checked x

def real (w : Word) : Binary64 := .ofInt w.val

def add (acc : Word) : Value → Except Failure Answer
  | .int z => checked (acc.add z)
  | .word w => checked (acc.add w)
  | .flag b => checked (acc.add (flagValue b))
  | .real x => refuseWide ((real acc).add x)
  | .other kind => refuse kind

def mul (acc : Word) : Value → Except Failure Answer
  | .int z => checked (acc.mul z)
  | .word w => checked (acc.mul w)
  | .flag b => checked (acc.mul (flagValue b))
  | .real x => refuseWide ((real acc).mul x)
  | .other kind => refuse kind

def sub (acc : Word) : Value → Except Failure Answer
  | .int z => checked (acc.sub z)
  | .word w => checked (acc.sub w)
  | .flag b => shownAs (toString acc.val) (flagText b) (acc.sub (flagValue b))
  | .real x => refuseDifference (toString acc.val) x.text ((real acc).sub x)
  | .other kind => refuse kind

def subFrom (acc : Word) : Value → Except Failure Answer
  | .int z => checked (acc.subFrom z)
  | .word w => checked (acc.subFrom w)
  | .flag b => shownAs (flagText b) (toString acc.val) (acc.subFrom (flagValue b))
  | .real x => refuseDifference x.text (toString acc.val) (x.sub (real acc))
  | .other kind => refuse kind

def div (acc : Word) : Value → Except Failure Answer
  | .int z => checked (acc.div z)
  | .word w => checked (acc.div w)
  | .flag b => checked (acc.div (flagValue b))
  | .real x => if x.isZero then .error (.fault (.divisionByZero acc.val)) else refuse realKind
  | .other kind => refuse kind

def divInto (acc : Word) : Value → Except Failure Answer
  | .int z => checked (acc.divInto z)
  | .word w => checked (acc.divInto w)
  | .flag b => match acc.divInto (flagValue b) with
    | .error (.divisionByZero _) => .error (.divisionByZero (flagText b))
    | x => checked x
  | .real x => if acc.val = 0 then .error (.divisionByZero x.text) else refuse realKind
  | .other kind => refuse kind

def pow (acc : Word) : Value → Except Failure Answer
  | .int z => checked (acc.pow z)
  | .word w => checked (acc.pow w)
  | .flag b => checked (acc.pow (flagValue b))
  | .real _ => .error (.notCountable realKind)
  | .other kind => .error (.notCountable kind)

def dist (acc : Word) : Value → Except Failure Answer
  | .int z => checked (acc.dist z)
  | .word w => checked (acc.dist w)
  | .flag b => checked (acc.dist (flagValue b))
  | .real _ => refuse realKind
  | .other kind => refuse kind

def subOrNothing (acc : Word) : Value → Except Failure Answer
  | .int z => checked? (acc.sub? z)
  | .word w => checked? (acc.sub? w)
  | .flag b => checked? (acc.sub? (flagValue b))
  | .real x => if ((real acc).sub x).ltInt 0 then .ok .nothing else refuse realKind
  | .other kind => refuse kind

def divOrNothing (acc : Word) : Value → Except Failure Answer
  | .int z => checked? (acc.div? z)
  | .word w => checked? (acc.div? w)
  | .flag b => checked? (acc.div? (flagValue b))
  | .real x => if x.isZero then .ok .nothing else refuse realKind
  | .other kind => refuse kind

def Value.int? : Value → Option Int
  | int z => some z
  | word w => some w.val
  | flag b => some (flagValue b)
  | _ => none

/-- The register equals an operand; a double or another value never equals a word. -/
def equals (acc : Word) (x : Value) : Bool :=
  x.int? == some (acc.val : Int)

def below (acc : Word) : Value → Bool
  | .real x => x.gtInt acc.val
  | x => match x.int? with
    | some z => decide ((acc.val : Int) < z)
    | none => false

def above (acc : Word) : Value → Bool
  | .real x => x.ltInt acc.val
  | x => match x.int? with
    | some z => decide (z < (acc.val : Int))
    | none => false

/-- The register is equal in size to an operand, doubles included. -/
def level (acc : Word) : Value → Bool
  | .real x => x.eqInt acc.val
  | x => equals acc x

/-- The hash of a double: that of the integer it is, and in general its value modulo the modulus of
integer hashes, in which a power of two has period sixty-one. -/
def hashReal : Binary64 → Int
  | .nan => 0
  | .infinity s => if s then -314159 else 314159
  | .finite s m e =>
      Word.hashInt (Binary64.signed s (m <<< (e.emod 61).toNat % Word.hashModulus))

def Value.hash : Value → Int
  | real x => hashReal x
  | x => Word.hashInt (x.int?.getD 0)

def Step.run (acc : Word) : Step → Except Failure Answer
  | make x => checked (Word.read x.operand)
  | copy => .ok (.word acc)
  | zero => .ok (.word .zero)
  | ofInt64 x => match Word.read x.operand with
    | .error f => .error (.fault f)
    | .ok w => checked w.narrowed
  | add x => Register.add acc x
  | sub x => Register.sub acc x
  | subFrom x => Register.subFrom acc x
  | mul x => Register.mul acc x
  | div x => Register.div acc x
  | divInto x => Register.divInto acc x
  | pow x => Register.pow acc x
  | dist x => Register.dist acc x
  | sub? x => subOrNothing acc x
  | div? x => divOrNothing acc x
  | narrow => match acc.narrow with
    | .ok n => .ok (.int n)
    | .error f => .error (.fault f)
  | fits64 => .ok (.flag acc.fits64)
  | nonzero => .ok (.flag (acc.val != 0))
  | value => .ok (.int acc.val)
  | decimal => .ok (.text (toString acc.val))
  | display => .ok (.text s!"SafeInt({acc.val})")
  | hex => .ok (.text ("0x" ++ String.ofList (Nat.toDigits 16 acc.val)))
  | eq x => .ok (.flag (equals acc x))
  | ne x => .ok (.flag (!equals acc x))
  | lt x => .ok (.flag (below acc x))
  | le x => .ok (.flag (below acc x || level acc x))
  | gt x => .ok (.flag (above acc x))
  | ge x => .ok (.flag (above acc x || level acc x))
  | sameHash x => .ok (.flag (acc.hash == x.hash))

def Step.after (acc : Word) (s : Step) : Word :=
  match s.run acc with
  | .ok (.word w) => w
  | _ => acc

def run (acc : Word) (steps : List Step) : Word :=
  steps.foldl Step.after acc

end PegPool.Register
