/-!
# Bytes as hexadecimal text

Two digits a byte, the high one first.  Writing uses lower case; reading takes either.
-/

namespace PegPool.Hex

def digit (n : Nat) : Char :=
  if n < 10 then Char.ofNat ('0'.toNat + n) else Char.ofNat ('a'.toNat + (n - 10))

def digit? (c : Char) : Option Nat :=
  if '0' ≤ c ∧ c ≤ '9' then some (c.toNat - '0'.toNat)
  else if 'a' ≤ c ∧ c ≤ 'f' then some (c.toNat - 'a'.toNat + 10)
  else if 'A' ≤ c ∧ c ≤ 'F' then some (c.toNat - 'A'.toNat + 10)
  else none

def encode : List UInt8 → List Char
  | [] => []
  | b :: bs => digit (b.toNat / 16) :: digit (b.toNat % 16) :: encode bs

/-- The bytes that digits write; nothing if a character is no digit or a digit is left over. -/
def decode? : List Char → Option (List UInt8)
  | [] => some []
  | [_] => none
  | h :: l :: rest => do
      let high ← digit? h
      let low ← digit? l
      let bytes ← decode? rest
      return UInt8.ofNat (high * 16 + low) :: bytes

def ofNat (n : Nat) : String :=
  String.ofList (Nat.toDigits 16 n)

end PegPool.Hex
