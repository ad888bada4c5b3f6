import PegPool.Binary64
import PegPool.JsonString

/-!
# JSON values

A number written with a point or an exponent is a double and any other number an integer of any
size; the two stay apart, because a request may hold one where the other is refused.  The members
of an object keep the order in which their keys first appear, and a key that is written again
replaces the value in place (`Json.ofMembers`).
-/

namespace PegPool

inductive Json where
  | null
  | bool (value : Bool)
  /-- A number without point and exponent. -/
  | int (value : Int)
  /-- A number with a point or an exponent, or one of the texts for infinity and no number. -/
  | float (value : Binary64)
  | str (value : JsonString)
  | arr (items : List Json)
  | obj (members : List (JsonString × Json))
deriving Repr

namespace Json

instance : Inhabited Json := ⟨.null⟩
instance : Coe String Json := ⟨fun s => .str s⟩
instance : Coe JsonString Json := ⟨.str⟩
instance : Coe Int Json := ⟨.int⟩
instance : Coe Nat Json := ⟨fun n => .int n⟩
instance : Coe Bool Json := ⟨.bool⟩

def kind : Json → String
  | null => "NoneType"
  | bool _ => "bool"
  | int _ => "int"
  | float _ => "float"
  | str _ => "str"
  | arr _ => "list"
  | obj _ => "dict"

abbrev Members := List (JsonString × Json)

/-- Sets the value of a key: in place if the object has the key, otherwise at its end. -/
def insertMember (key : JsonString) (value : Json) : Members → Members
  | [] => [(key, value)]
  | (k, v) :: rest =>
      if k = key then (key, value) :: rest else (k, v) :: insertMember key value rest

/-- The object of a sequence of written members, in which the last value of a key counts. -/
def ofMembers (members : Members) : Json :=
  .obj (members.foldl (fun acc m => insertMember m.1 m.2 acc) [])

def find? (key : JsonString) : Members → Option Json
  | [] => none
  | (k, v) :: rest => if k = key then some v else find? key rest

def get? (key : JsonString) : Json → Option Json
  | obj members => find? key members
  | _ => none

/-- The marks of a key that reports leave out. -/
def hiddenMark : List Nat := "_sa".toList.map Char.toNat

mutual

/-- The value as reports show it: without the members whose keys begin with the mark. -/
def shown : Json → Json
  | arr items => arr (shownItems items)
  | obj members => obj (shownMembers members)
  | v => v

def shownItems : List Json → List Json
  | [] => []
  | v :: rest => shown v :: shownItems rest

def shownMembers : Members → Members
  | [] => []
  | (k, v) :: rest =>
      if hiddenMark.isPrefixOf k.points then shownMembers rest
      else (k, shown v) :: shownMembers rest

end

mutual

/-- An infinity or no number occurs somewhere in the value. -/
def hasNonFinite : Json → Bool
  | float x => !x.isFinite
  | arr items => itemsHaveNonFinite items
  | obj members => membersHaveNonFinite members
  | _ => false

def itemsHaveNonFinite : List Json → Bool
  | [] => false
  | v :: rest => hasNonFinite v || itemsHaveNonFinite rest

def membersHaveNonFinite : Members → Bool
  | [] => false
  | (_, v) :: rest => hasNonFinite v || membersHaveNonFinite rest

end

end Json

end PegPool
