import PegPool.Hex
import PegPool.Text.Visible

/-!
# Quoted text in messages

A text is quoted with apostrophes, or with double quotes if it holds an apostrophe and no double
quote. The quote, the backslash and every code point without a visible form are escaped.
-/

namespace PegPool.Text

/-- The last `width` hexadecimal digits of a number. -/
def hexDigits : Nat → Nat → List Char
  | 0, _ => []
  | width + 1, n => hexDigits width (n / 16) ++ [Hex.digit (n % 16)]

/-- The escape of a code point by its number, as short as its size allows. -/
def numberEscape (n : Nat) : List Char :=
  if n < 0x100 then '\\' :: 'x' :: hexDigits 2 n
  else if n < 0x10000 then '\\' :: 'u' :: hexDigits 4 n
  else '\\' :: 'U' :: hexDigits 8 n

/-- A code point between quotes. -/
def escapeIn (quote : Char) (n : Nat) : List Char :=
  if n = quote.toNat ∨ n = '\\'.toNat then ['\\', Char.ofNat n]
  else if n = '\n'.toNat then ['\\', 'n']
  else if n = '\r'.toNat then ['\\', 'r']
  else if n = '\t'.toNat then ['\\', 't']
  else if isVisible n then [Char.ofNat n]
  else numberEscape n

def quoted (points : List Nat) : List Char :=
  let has (c : Char) := points.contains c.toNat
  let quote := if has '\'' && !has '"' then '"' else '\''
  quote :: points.flatMap (escapeIn quote) ++ [quote]

end PegPool.Text
