import PegPool.Text.Writing

/-!
# Checked words

A `Word` is a natural number below `2 ^ 256`, the width in which reserves and invariants are
multiplied.  Arithmetic on words takes an arbitrary integer as its second operand and is exact or
refused: the result of `s.add o` is the word holding `s + o`, or the `Fault` that says why no word
holds it.  Nothing wraps and nothing saturates, so a failed calculation can never look like an
amount.

`Word.ofInt` is the only place where a word is made, and every operation ends in it.  A fault that
an operation reports itself (`underflow`, `divisionByZero`) names both operands; the remaining ones
come from `ofInt`.

A fault is told by a text that shows its numbers.  If one of them cannot be written, telling of the
fault fails, and that failure is caught by no one who only expects a fault of arithmetic
(`Fault.isCaught`).
-/

namespace PegPool

inductive Fault where
  | negative (value : Int)
  /-- A difference came out negative. -/
  | underflow (minuend subtrahend : Int)
  /-- A value needs more than 256 bits. -/
  | overflow (value : Int)
  | divisionByZero (dividend : Int)
  /-- A word does not fit in 64 bits. -/
  | narrowing (value : Nat)
  /-- An operand is not an integer but a value of the named kind. -/
  | notInteger (kind : String)
  /-- A fee that is spread over the assets was asked for fewer than two of them. -/
  | fewAssets
  /-- A deposit does not raise the invariant. -/
  | noGrowth
deriving DecidableEq, Repr

namespace Fault

def numbers : Fault → List Int
  | negative value | overflow value | divisionByZero value => [value]
  | underflow minuend subtrahend => [minuend, subtrahend, minuend - subtrahend]
  | narrowing value => [value]
  | notInteger _ | fewAssets | noGrowth => []

def isWritable (f : Fault) : Bool :=
  f.numbers.all Text.isWritable

def message (f : Fault) : String :=
  Text.showing f.numbers <| match f with
  | negative value => s!"SafeInt cannot hold negative value: {value}"
  | underflow minuend subtrahend =>
      s!"Underflow: {minuend} - {subtrahend} = {minuend - subtrahend}"
  | overflow value => s!"Value exceeds uint256 max: {value}"
  | divisionByZero dividend => s!"Division by zero: {dividend} // 0"
  | narrowing value => s!"Value exceeds u64 max: {value}"
  | notInteger kind => s!"SafeInt requires int, got {kind}"
  | fewAssets => "a fee is spread over at least two assets"
  | noGrowth => "the deposit does not raise the invariant"

/-- Arithmetic has no answer for these operands, as opposed to an operand that is no number. -/
def isArithmetic : Fault → Bool
  | notInteger _ => false
  | _ => true

/-- A calculation that expects faults of arithmetic has no answer then; any other fault, and one that
cannot be written, breaks it off. -/
def isCaught (f : Fault) : Bool :=
  f.isArithmetic && f.isWritable

end Fault

/-- A natural number of at most 256 bits. -/
@[ext]
structure Word where
  val : Nat
  lt : val < 1 <<< 256
deriving DecidableEq

/-- An argument of a calculation: an integer, or a value of another kind that the calculation
rejects when it comes to read it. -/
inductive Operand where
  /-- An integer of any sign and size. -/
  | int (value : Int)
  /-- Something else, known by the name of its kind. -/
  | foreign (kind : String)
deriving DecidableEq, Repr

namespace Operand

instance : Coe Int Operand := ⟨.int⟩
instance : Coe Nat Operand := ⟨fun n => .int n⟩
instance : Coe Word Operand := ⟨fun w => .int w.val⟩

def value : Operand → Int
  | int z => z
  | foreign _ => 0

end Operand

namespace Word

instance : Coe Word Int := ⟨fun w => w.val⟩
instance : Repr Word := ⟨fun w prec => reprPrec w.val prec⟩

/-- The word holding `z`, if one does. -/
def ofInt (z : Int) : Except Fault Word :=
  if z < 0 then .error (.negative z)
  else if h : z.toNat < 1 <<< 256 then .ok ⟨z.toNat, h⟩
  else .error (.overflow z)

def zero : Word := ⟨0, by decide⟩

/-- Reads an argument: an integer must fit in a word, anything else is refused. -/
def read : Operand → Except Fault Word
  | .int z => ofInt z
  | .foreign kind => .error (.notInteger kind)

def add (s : Word) (o : Int) : Except Fault Word :=
  ofInt (s.val + o)

def sub (s : Word) (o : Int) : Except Fault Word :=
  if (s.val : Int) - o < 0 then .error (.underflow s.val o) else ofInt (s.val - o)

/-- The difference `o - s`. -/
def subFrom (s : Word) (o : Int) : Except Fault Word :=
  if o - (s.val : Int) < 0 then .error (.underflow o s.val) else ofInt (o - s.val)

def mul (s : Word) (o : Int) : Except Fault Word :=
  ofInt (s.val * o)

/-- The quotient `s / o`, rounded toward minus infinity. -/
def div (s : Word) (o : Int) : Except Fault Word :=
  if o = 0 then .error (.divisionByZero s.val) else ofInt ((s.val : Int).fdiv o)

/-- The quotient `o / s`, rounded toward minus infinity. -/
def divInto (s : Word) (o : Int) : Except Fault Word :=
  if s.val = 0 then .error (.divisionByZero o) else ofInt (o.fdiv s.val)

/-- Multiplies `acc` by `s` another `n` times, checking every product. -/
def powFrom (s acc : Word) : Nat → Except Fault Word
  | 0 => .ok acc
  | n + 1 => match acc.mul s with
    | .ok next => powFrom s next n
    | .error e => .error e

/-- The power `s ^ k`; an exponent below one gives one. -/
def pow (s : Word) (k : Int) : Except Fault Word :=
  powFrom s ⟨1, by decide⟩ k.toNat

def dist (s : Word) (o : Int) : Except Fault Word :=
  if o ≤ (s.val : Int) then ofInt (s.val - o) else ofInt (o - s.val)

/-- The difference `s - o`, or nothing if it is negative. -/
def sub? (s : Word) (o : Int) : Except Fault (Option Word) :=
  if (s.val : Int) - o < 0 then .ok none else (ofInt (s.val - o)).map some

/-- The quotient `s / o`, or nothing if `o` is zero. -/
def div? (s : Word) (o : Int) : Except Fault (Option Word) :=
  if o = 0 then .ok none else (ofInt ((s.val : Int).fdiv o)).map some

def fits64 (s : Word) : Bool :=
  decide (s.val < 1 <<< 64)

/-- The number of a word that 64 bits hold. -/
def narrow (s : Word) : Except Fault Nat :=
  if s.val < 1 <<< 64 then .ok s.val else .error (.narrowing s.val)

/-- The word itself, once 64 bits are known to hold it. -/
def narrowed (s : Word) : Except Fault Word := do
  let _ ← s.narrow
  return s

/-- The word of an integer that 64 bits hold. -/
def ofInt64 (z : Int) : Except Fault Word := do
  (← ofInt z).narrowed

/-- The modulus of the hash of a number, a Mersenne prime. -/
def hashModulus : Nat := 1 <<< 61 - 1

/-- The hash of an integer: its remainder toward zero, where minus one gives way to minus two. -/
def hashInt (z : Int) : Int :=
  let r := z.tmod hashModulus
  if r = -1 then -2 else r

def hash (s : Word) : Int :=
  hashInt s.val

end Word

end PegPool
