import PegPool.Asset
import PegPool.Service.Issue

/-!
# Reading fields

A `Reader` checks the value at a path.  `Record` is an object whose fields are read by key; every
field has two spellings of its key, and where an object has both, the first one counts.
-/

namespace PegPool.Service

/-- Where a value was found, and how a body that is no object is reported. -/
structure Place where
  path : List String
  /-- Whether a missing object is reported by what it lacks instead of by the body's title. -/
  anonymous : Bool
deriving DecidableEq, Repr

def Place.member (p : Place) (key : String) : Place :=
  { p with path := p.path ++ [key] }

abbrev Reader (α : Type) := Place → Json → Checked α

def refuse {α : Type} (p : Place) (problem : Problem) (value : Json) : Checked α :=
  .issue p.path problem value

/-! ## Values -/

def amount : Reader Amount := fun p j =>
  match Amount.ofJson j with
  | .ok a => .good a
  | .error e => refuse p (.refused e.message.lossy) j

/-- The integer that a JSON value stands for: an integer, a truth value as zero or one, a double
without fraction below `2 ^ 63`, or a text that holds a numeral. -/
def integerOf (j : Json) : Except Problem Int :=
  match j with
  | .int z => .ok z
  | .bool b => .ok (if b then 1 else 0)
  | .float x =>
      if !x.isFinite then .error .notFinite
      else match x.toInt? with
        | none => .error .fractional
        | some z => if z.natAbs < 1 <<< 63 then .ok z else .error .oversized
  | .str (.broken _) => .error .illFormed
  | .str (.plain s) => match Text.readPlainNumeral s.toList with
    | .ok z => .ok z
    | .error .malformed => .error .notNumeral
    | .error (.tooLong _) => .error .oversized
  | _ => .error .notInteger

def integer : Reader Int := fun p j =>
  match integerOf j with
  | .ok z => .good z
  | .error problem => refuse p problem j

def integerFrom (least : Int) : Reader Int := fun p j =>
  (integer p j).andThen fun z => if z < least then refuse p (.belowLeast least) j else .good z

def integerBetween (least most : Int) : Reader Int := fun p j =>
  (integerFrom least p j).andThen fun z =>
    if most < z then refuse p (.aboveMost most) j else .good z

def text : Reader JsonString := fun p j =>
  match j with
  | .str s => .good s
  | _ => refuse p .notText j

def plainText : Reader String := fun p j =>
  (text p j).andThen fun
    | .plain s => .good s
    | .broken _ => refuse p .illFormed j

def choice {α : Type} (labels : List String) (ofLabel? : String → Option α) : Reader α := fun p j =>
  match j with
  | .str (.broken _) => refuse p .illFormed j
  | .str (.plain s) => match ofLabel? s with
    | some a => .good a
    | none => refuse p (.noLabel labels) j
  | _ => refuse p (.noLabel labels) j

def asset : Reader Asset :=
  choice [Asset.a.label, Asset.b.label] Asset.ofLabel?

def direction : Reader Direction :=
  choice [Direction.aToB.label, Direction.bToA.label] Direction.ofLabel?

def nullable {α : Type} (read : Reader α) : Reader (Option α) := fun p j =>
  match j with
  | .null => .good none
  | j => (read p j).map some

/-! ## Fields of an object -/

structure Key where
  /-- The spelling that counts first, and in which the field is written. -/
  name : String
  alternative : String
deriving DecidableEq, Repr

structure Record where
  place : Place
  members : Json.Members
deriving Repr

namespace Record

variable {α : Type}

/-- The value of a field, with the spelling of its key that was used. -/
def find? (r : Record) (key : Key) : Option (String × Json) :=
  match Json.find? key.name r.members with
  | some v => some (key.name, v)
  | none => (Json.find? key.alternative r.members).map fun v => (key.alternative, v)

def required (r : Record) (key : Key) (read : Reader α) : Checked α :=
  match r.find? key with
  | some (k, v) => read (r.place.member k) v
  | none => .issue (r.place.member key.name).path .missing (.obj r.members)

def optional (r : Record) (key : Key) (read : Reader α) (default : α) : Checked α :=
  match r.find? key with
  | some (k, v) => read (r.place.member k) v
  | none => .good default

/-- The member is one of the fields: its key has the first spelling of one, or the other spelling
while the object lacks the first. -/
def knows (r : Record) (keys : List Key) (k : JsonString) : Bool :=
  keys.any fun key => k == key.name ||
    (k == key.alternative && (Json.find? key.name r.members).isNone)

def only (r : Record) (keys : List Key) : Checked Unit :=
  match r.members.filter (fun m => !r.knows keys m.1) with
  | [] => .good ()
  | extra => .bad (extra.map fun m => ⟨(r.place.member m.1.lossy).path, .extraField, m.2⟩)

def brokenKey? (r : Record) : Option JsonString :=
  (r.members.find? fun m => m.1.plain?.isNone).map (·.1)

end Record

def body {α : Type} (title : String) (read : Record → Checked α) : Reader α := fun p j =>
  match j with
  | .obj members => read ⟨p, members⟩
  | j => refuse p (if p.anonymous then .notObject else .notBody title) j

/-- Reads an object of the named kind that has no members besides its fields. A key that is not made
of characters alone is reported in place of all else. -/
def closedBody {α : Type} (title : String) (keys : List Key) (read : Record → Checked α) :
    Reader α :=
  body title fun r => match r.brokenKey? with
    | some key => refuse r.place .illFormed key
    | none => (fun a _ => a) <$> read r <*> r.only keys

end PegPool.Service
