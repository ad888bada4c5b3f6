/-!
# The two assets of a pool

The arithmetic treats both assets alike; what an operation says about them is which one it starts
from.
-/

namespace PegPool

inductive Asset where
  | a
  | b
deriving DecidableEq, Repr

namespace Asset

def other : Asset → Asset
  | a => b
  | b => a

def label : Asset → String
  | a => "a"
  | b => "b"

def ofLabel? (s : String) : Option Asset :=
  if s = "a" then some a else if s = "b" then some b else none

end Asset

/-- Which asset a swap takes in; it pays out the other one. -/
inductive Direction where
  | aToB
  | bToA
deriving DecidableEq, Repr

namespace Direction

def source : Direction → Asset
  | aToB => .a
  | bToA => .b

def destination (d : Direction) : Asset :=
  d.source.other

def reverse : Direction → Direction
  | aToB => bToA
  | bToA => aToB

def label : Direction → String
  | aToB => "a_to_b"
  | bToA => "b_to_a"

def ofLabel? (s : String) : Option Direction :=
  if s = "a_to_b" then some aToB else if s = "b_to_a" then some bToA else none

end Direction

end PegPool
