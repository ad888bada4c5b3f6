import PegPool.Text.Blank
import PegPool.Text.DecimalDigit
import PegPool.Text.Writing

/-!
# Numerals

Two ways to write an integer in a text.

`readNumeral` takes blanks around one optional sign and the digits, digits of any script, single
underscores between digits, and zeros in front; more than 4300 digits are refused.

`readPlainNumeral` takes ASCII digits only. A text that is written out, with a minus or without and
no zero in front, is read as it stands (`readWrittenOut`). Any other text is first made one
(`writeOut?`): blanks around it, a plus, zeros in front, a tail `.0…0` and single underscores are
dropped. The zeros in front are dropped together with any underscores among them, and a minus may
stand behind them as well. Only a text that is too long as it stands is told to be so.
-/

namespace PegPool.Text

inductive NumeralError where
  | malformed
  /-- The text is too long to be read; `size` is its length as its grammar counts it. -/
  | tooLong (size : Nat)
deriving DecidableEq, Repr

/-- The digits of a numeral in which single underscores may stand between two of them. -/
def readDigits (digit? : Char → Option Nat) : List Char → Option (List Nat)
  | [] => none
  | [c] => do return [← digit? c]
  | c :: '_' :: rest => do return (← digit? c) :: (← readDigits digit? rest)
  | c :: rest => do return (← digit? c) :: (← readDigits digit? rest)

def ofDigits (ds : List Nat) : Nat :=
  ds.foldl (fun n d => 10 * n + d) 0

/-- Takes an optional sign off the front; true for a minus. -/
def readSign : List Char → Bool × List Char
  | '-' :: rest => (true, rest)
  | '+' :: rest => (false, rest)
  | rest => (false, rest)

/-- The integer of a sign and digits. -/
def signedValue (negative : Bool) (ds : List Nat) : Int :=
  if negative then -(ofDigits ds : Int) else ofDigits ds

def readNumeral (cs : List Char) : Except NumeralError Int :=
  let (negative, body) := readSign (trim isSpacing cs)
  match readDigits digit? body with
  | none => .error .malformed
  | some ds =>
      if maxNumeralDigits < ds.length then .error (.tooLong ds.length)
      else .ok (signedValue negative ds)

/-! ## Plain numerals -/

def ofAsciiDigits (ds : List Char) : Nat :=
  ds.foldl (fun n c => 10 * n + (c.toNat - '0'.toNat)) 0

/-- Reads an integer that is written out: a minus or nothing, and a zero or digits that begin with
another digit. More than 4300 characters, the minus among them, are too long, whatever comes behind
them. -/
def readWrittenOut (cs : List Char) : Except NumeralError Int :=
  let negative := cs.head? == some '-'
  let body := if negative then cs.drop 1 else cs
  let ds := body.takeWhile Char.isDigit
  let size := ds.length + negative.toNat
  let value : Int := ofAsciiDigits ds
  match ds with
  | [] => .error .malformed
  | '0' :: _ => if body = ['0'] then .ok 0 else .error .malformed
  | _ =>
      if maxNumeralDigits < size then .error (.tooLong size)
      else if ds.length < body.length then .error .malformed
      else .ok (if negative then -value else value)

/-- Drops what remains of zeros in front and the underscores among them; `last` is the character
before. If nothing but a point or nothing at all comes behind, the last of them is kept. -/
def dropZerosAfter (last : Char) : List Char → Option (List Char)
  | [] => some [last]
  | c :: rest =>
      if c = '0' ∨ c = '_' then dropZerosAfter c rest
      else if c = '.' then some (last :: c :: rest)
      else if c.isDigit ∨ c = '-' then some (c :: rest)
      else none

/-- Drops zeros in front of a text that begins with a digit. -/
def dropZeros? : List Char → Option (List Char)
  | [] => none
  | c :: rest =>
      if c = '0' then dropZerosAfter c rest
      else if c.isDigit then some (c :: rest)
      else none

def dropZeroTail (cs : List Char) : List Char :=
  let whole := cs.takeWhile (· != '.')
  match cs.dropWhile (· != '.') with
  | '.' :: zeros => if !zeros.isEmpty && zeros.all (· == '0') then whole else cs
  | _ => cs

def hasDoubleUnderscore : List Char → Bool
  | '_' :: '_' :: _ => true
  | _ :: rest => hasDoubleUnderscore rest
  | [] => false

/-- Drops underscores that stand alone between other characters; if one does not, all are kept. -/
def dropUnderscores (cs : List Char) : List Char :=
  if cs.head? == some '_' || cs.getLast? == some '_' || hasDoubleUnderscore cs then cs
  else cs.filter (· != '_')

def writeOut? (cs : List Char) : Option (List Char) :=
  let tidy (body : List Char) := (dropZeros? body).map (dropUnderscores ∘ dropZeroTail)
  match trim isSpacing cs with
  | '-' :: body => (tidy body).map ('-' :: ·)
  | '+' :: body => tidy body
  | body => tidy body

def readPlainNumeral (cs : List Char) : Except NumeralError Int :=
  match readWrittenOut cs with
  | .error .malformed => match (writeOut? cs).map readWrittenOut with
    | some (.ok z) => .ok z
    | _ => .error .malformed
  | r => r

end PegPool.Text
