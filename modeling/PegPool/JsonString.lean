/-!
# Strings of JSON

An escape in a JSON text names a unit of sixteen bits, so a string may hold half of a surrogate
pair, which is no character. `JsonString` keeps such strings apart: an ordinary one is `plain` and
holds a `String`, and only one with a surrogate that stands alone is `broken`.
-/

namespace PegPool

inductive JsonString where
  | plain (s : String)
  /-- Code points, among them a surrogate that stands alone. -/
  | broken (points : List Nat)
deriving DecidableEq, Repr

namespace JsonString

instance : Inhabited JsonString := ⟨.plain ""⟩
instance : Coe String JsonString := ⟨.plain⟩

def isSurrogate (n : Nat) : Bool :=
  decide (0xD800 ≤ n) && decide (n < 0xE000)

def points : JsonString → List Nat
  | plain s => s.toList.map Char.toNat
  | broken ps => ps

def ofPoints (ps : List Nat) : JsonString :=
  if ps.any isSurrogate then .broken ps else .plain (String.ofList (ps.map Char.ofNat))

/-- The characters of a string that holds nothing else. -/
def plain? : JsonString → Option String
  | plain s => some s
  | broken _ => none

def append : JsonString → JsonString → JsonString
  | plain s, plain t => plain (s ++ t)
  | s, t => broken (s.points ++ t.points)

instance : Append JsonString := ⟨append⟩

/-- The character put in place of what is none. -/
def replacement : Char := '\uFFFD'

/-- The characters of a string. The three bytes of a surrogate's encoding are replaced one by one.
-/
def lossy : JsonString → String
  | plain s => s
  | broken ps => String.ofList <| ps.flatMap fun n =>
      if isSurrogate n then List.replicate 3 replacement else [Char.ofNat n]

end JsonString

end PegPool
