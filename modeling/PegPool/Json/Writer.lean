import PegPool.Hex
import PegPool.Json

/-!
# Writing JSON text

`Json.written` is the text of a value without blanks, the members of an object in their order, as
code points. A string escapes the quote, the backslash and the control characters; a surrogate that
stands alone stands for itself. `Json.render` makes characters of it by escaping the surrogates.
-/

namespace PegPool.Json

def pointsOf (s : String) : List Nat :=
  s.toList.map Char.toNat

def unitEscape (n : Nat) : String :=
  "\\u" ++ String.ofList [Hex.digit (n / 0x1000 % 16), Hex.digit (n / 0x100 % 16),
    Hex.digit (n / 0x10 % 16), Hex.digit (n % 16)]

/-- A code point inside a quoted string. -/
def escapePoint (n : Nat) : List Nat :=
  if n < 0x20 then
    pointsOf <| match n with
      | 0x08 => "\\b"
      | 0x09 => "\\t"
      | 0x0A => "\\n"
      | 0x0C => "\\f"
      | 0x0D => "\\r"
      | n => unitEscape n
  else if n = '"'.toNat ∨ n = '\\'.toNat then ['\\'.toNat, n]
  else [n]

def quote (s : JsonString) : List Nat :=
  '"'.toNat :: (s.points.flatMap escapePoint ++ ['"'.toNat])

/-- The text of a double; the values that are not finite are written as words. -/
def floatText : Binary64 → String
  | .nan => "NaN"
  | .infinity s => if s then "-Infinity" else "Infinity"
  | x => x.text

mutual

/-- The text of a value, as code points. -/
def written : Json → List Nat
  | null => pointsOf "null"
  | bool b => pointsOf (if b then "true" else "false")
  | int z => pointsOf (toString z)
  | float x => pointsOf (floatText x)
  | str s => quote s
  | arr items => '['.toNat :: (writtenItems items ++ [']'.toNat])
  | obj members => '\x7b'.toNat :: (writtenMembers members ++ ['\x7d'.toNat])

def writtenItems : List Json → List Nat
  | [] => []
  | [v] => written v
  | v :: rest => written v ++ ','.toNat :: writtenItems rest

def writtenMembers : Members → List Nat
  | [] => []
  | [(k, v)] => quote k ++ ':'.toNat :: written v
  | (k, v) :: rest => quote k ++ ':'.toNat :: (written v ++ ','.toNat :: writtenMembers rest)

end

def render (j : Json) : String :=
  String.ofList <| j.written.flatMap fun n =>
    if JsonString.isSurrogate n then (unitEscape n).toList else [Char.ofNat n]

end PegPool.Json
