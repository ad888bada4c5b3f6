import PegPool.Hex
import PegPool.Json

/-!
# Reading JSON text

`Json.read?` reads a whole text as one value with blanks around it.  Every reader takes the
characters that are left and returns what it read and the characters after it.  Besides the usual
numbers the texts `NaN`, `Infinity` and `-Infinity` are values.  An integer of more than 4300
digits is refused.

Escapes `\uXXXX` name UTF-16 units: a high unit and the low unit behind it are one character. A
unit without its partner stays in the string, which is then a broken one.
-/

namespace PegPool.Json

/-- Why a text is not read as a value. -/
inductive ReadError where
  | malformed
  /-- An integer has this many digits, more than are read. -/
  | integerTooLong (digits : Nat)
deriving DecidableEq, Repr

def maxDigits : Nat := 4300

def isBlank (c : Char) : Bool :=
  c == ' ' || c == '\t' || c == '\n' || c == '\r'

def skipBlanks (cs : List Char) : List Char :=
  cs.dropWhile isBlank

/-- What comes after `word`, if the characters start with it. -/
def dropWord? : List Char → List Char → Option (List Char)
  | [], cs => some cs
  | w :: ws, c :: cs => if w = c then dropWord? ws cs else none
  | _ :: _, [] => none

/-! ## Strings -/

def hexUnit? (a b c d : Char) : Option Nat := do
  let high := (← Hex.digit? a) * 16 + (← Hex.digit? b)
  let low := (← Hex.digit? c) * 16 + (← Hex.digit? d)
  return high * 256 + low

/-- A unit that opens a pair. -/
def isHighUnit (u : Nat) : Bool :=
  0xD800 ≤ u && u < 0xDC00

/-- A unit that closes a pair. -/
def isLowUnit (u : Nat) : Bool :=
  0xDC00 ≤ u && u < 0xE000

/-- The code point of a pair of units. -/
def ofPair (high low : Nat) : Nat :=
  0x10000 + (high - 0xD800) * 0x400 + (low - 0xDC00)

def simpleEscape? : Char → Option Char
  | '"' => some '"'
  | '\\' => some '\\'
  | '/' => some '/'
  | 'b' => some '\x08'
  | 'f' => some '\x0c'
  | 'n' => some '\n'
  | 'r' => some '\r'
  | 't' => some '\t'
  | _ => none

/-- Ends a wait for a low unit: the high unit stood alone. -/
def flush (acc : List Nat) : Option Nat → List Nat
  | some high => high :: acc
  | none => acc

/-- Takes an escaped unit after the code points `acc`, the latest first, and an unpaired high unit.
-/
def pushUnit (acc : List Nat) (high : Option Nat) (u : Nat) : List Nat × Option Nat :=
  if isHighUnit u then (flush acc high, some u)
  else match isLowUnit u, high with
    | true, some h => (ofPair h u :: acc, none)
    | _, _ => (u :: flush acc high, none)

/-- Reads the rest of a string whose quote has been read; `acc` holds its code points so far,
latest first, and `high` a high unit that waits for its partner. -/
def readStringBody (acc : List Nat) (high : Option Nat) :
    List Char → Except ReadError (JsonString × List Char)
  | [] => .error .malformed
  | '"' :: rest => .ok (.ofPoints (flush acc high).reverse, rest)
  | '\\' :: 'u' :: a :: b :: c :: d :: rest =>
      match hexUnit? a b c d with
      | some u => readStringBody (pushUnit acc high u).1 (pushUnit acc high u).2 rest
      | none => .error .malformed
  | '\\' :: c :: rest =>
      match simpleEscape? c with
      | some e => readStringBody (e.toNat :: flush acc high) none rest
      | none => .error .malformed
  | c :: rest =>
      if c.toNat < 0x20 || c == '\\' then .error .malformed
      else readStringBody (c.toNat :: flush acc high) none rest

/-! ## Numbers -/

def decimalValue (ds : List Char) : Nat :=
  ds.foldl (fun n c => 10 * n + (c.toNat - '0'.toNat)) 0

/-- The digits after a point, if a point with a digit behind it comes next. -/
def readFraction (cs : List Char) : Option (List Char × List Char) :=
  match cs with
  | '.' :: rest =>
      let ds := rest.takeWhile Char.isDigit
      if ds.isEmpty then none else some (ds, rest.dropWhile Char.isDigit)
  | _ => none

/-- The exponent, if one with at least one digit comes next. -/
def readExponent (cs : List Char) : Option (Int × List Char) :=
  match cs with
  | e :: rest =>
      if e = 'e' ∨ e = 'E' then
        let (negative, rest) := match rest with
          | '-' :: r => (true, r)
          | '+' :: r => (false, r)
          | r => (false, r)
        let ds := rest.takeWhile Char.isDigit
        if ds.isEmpty then none
        else
          let n : Int := decimalValue ds
          some (if negative then -n else n, rest.dropWhile Char.isDigit)
      else none
  | [] => none

/-- The digits before the point: a zero alone, or a sequence that starts with another digit. -/
def readWhole (cs : List Char) : Option (List Char × List Char) :=
  match cs with
  | '0' :: rest => some (['0'], rest)
  | c :: _ =>
      if c.isDigit then some (cs.takeWhile Char.isDigit, cs.dropWhile Char.isDigit) else none
  | [] => none

/-- Reads an unsigned number and gives it the sign. -/
def readUnsigned (negative : Bool) (cs : List Char) : Except ReadError (Json × List Char) :=
  match readWhole cs with
  | none => .error .malformed
  | some (whole, rest) =>
      let fraction := readFraction rest
      let rest := (fraction.map (·.2)).getD rest
      let exponent := readExponent rest
      let rest := (exponent.map (·.2)).getD rest
      if fraction.isNone && exponent.isNone then
        if maxDigits < whole.length then .error (.integerTooLong whole.length)
        else
          let n : Int := decimalValue whole
          .ok (.int (if negative then -n else n), rest)
      else
        let digits := (fraction.map (·.1)).getD []
        let scale : Int := (exponent.map (·.1)).getD 0
        .ok (.float (.ofDecimal negative (decimalValue (whole ++ digits)) (scale - digits.length)),
          rest)

def readNumber (cs : List Char) : Except ReadError (Json × List Char) :=
  match cs with
  | '-' :: rest => match dropWord? "Infinity".toList rest with
    | some rest => .ok (.float (.infinity true), rest)
    | none => readUnsigned true rest
  | _ => readUnsigned false cs

/-! ## Values -/

def words : List (List Char × Json) :=
  [("null".toList, .null), ("true".toList, .bool true), ("false".toList, .bool false),
    ("NaN".toList, .float .nan), ("Infinity".toList, .float (.infinity false))]

/-- The first of the words that comes next. -/
def readWord? (cs : List Char) : List (List Char × Json) → Option (Json × List Char)
  | [] => none
  | (w, v) :: more => match dropWord? w cs with
    | some rest => some (v, rest)
    | none => readWord? cs more

mutual

/-- Reads a value; blanks in front have been skipped.  The fuel bounds the depth and the number of
values, so the length of the text is enough. -/
def readValue : Nat → List Char → Except ReadError (Json × List Char)
  | 0, _ => .error .malformed
  | fuel + 1, cs =>
      match cs with
      | '"' :: rest => do
          let (s, rest) ← readStringBody [] none rest
          return (.str s, rest)
      | '[' :: rest => match skipBlanks rest with
        | ']' :: rest => .ok (.arr [], rest)
        | rest => readItems fuel [] rest
      | '\x7b' :: rest => match skipBlanks rest with
        | '\x7d' :: rest => .ok (.obj [], rest)
        | rest => readMembers fuel [] rest
      | _ => match readWord? cs words with
        | some r => .ok r
        | none => readNumber cs

/-- Reads the items of an array up to its bracket; `acc` holds the items so far, latest first. -/
def readItems : Nat → List Json → List Char → Except ReadError (Json × List Char)
  | 0, _, _ => .error .malformed
  | fuel + 1, acc, cs => do
      let (v, rest) ← readValue fuel cs
      match skipBlanks rest with
      | ',' :: rest => readItems fuel (v :: acc) (skipBlanks rest)
      | ']' :: rest => .ok (.arr (v :: acc).reverse, rest)
      | _ => .error .malformed

/-- Reads the members of an object up to its brace; `acc` holds the members so far, latest
first. -/
def readMembers : Nat → Members → List Char → Except ReadError (Json × List Char)
  | 0, _, _ => .error .malformed
  | fuel + 1, acc, cs => match cs with
    | '"' :: rest => do
        let (key, rest) ← readStringBody [] none rest
        match skipBlanks rest with
        | ':' :: rest =>
            let (v, rest) ← readValue fuel (skipBlanks rest)
            match skipBlanks rest with
            | ',' :: rest => readMembers fuel ((key, v) :: acc) (skipBlanks rest)
            | '\x7d' :: rest => .ok (ofMembers ((key, v) :: acc).reverse, rest)
            | _ => .error .malformed
        | _ => .error .malformed
    | _ => .error .malformed

end

/-- Reads a text that is one value with blanks around it. -/
def read? (text : String) : Except ReadError Json :=
  let cs := text.toList
  match readValue (cs.length + 1) (skipBlanks cs) with
  | .error e => .error e
  | .ok (v, rest) => if (skipBlanks rest).isEmpty then .ok v else .error .malformed

end PegPool.Json
