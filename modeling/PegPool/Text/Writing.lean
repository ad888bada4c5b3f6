/-!
# Written integers

An integer of more than 4300 digits, the sign not counted, is neither read nor written.  A text that
is to show one is never made; what is told instead is the limit.
-/

namespace PegPool.Text

def maxNumeralDigits : Nat := 4300

/-- The first number that has too many digits. -/
@[irreducible]
def writingLimit : Nat := Nat.pow 10 maxNumeralDigits

def isWritable (z : Int) : Bool :=
  decide (z.natAbs < writingLimit)

/-- What is told in place of a text that shows an integer with too many digits. -/
def limitNotice : String :=
  s!"Exceeds the limit ({maxNumeralDigits} digits) for integer string conversion; " ++
    "use sys.set_int_max_str_digits() to increase the limit"

/-- A text that shows the numbers, or the notice that one of them is too long. -/
def showing (numbers : List Int) (text : String) : String :=
  if numbers.all isWritable then text else limitNotice

end PegPool.Text
