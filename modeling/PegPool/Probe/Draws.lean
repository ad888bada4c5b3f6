/-!
# Draws

Where probes get their choices from: naturals that are drawn one after the other and start over at
their end.  A draw is folded into a range by its remainder (`between`), so that the same naturals
always make the same choices.
-/

namespace PegPool.Probe

structure Draws where
  /-- All of them. -/
  cycle : List Nat
  /-- Those that come before the cycle starts over. -/
  ahead : List Nat
deriving DecidableEq, Repr

/-- A choice that is made by drawing. -/
abbrev Draw := StateM Draws

namespace Draws

def ofList (ds : List Nat) : Draws := ⟨ds, ds⟩

/-- The next natural; zero if there is none at all. -/
def next (s : Draws) : Nat × Draws :=
  match s.ahead, s.cycle with
  | d :: rest, _ => (d, { s with ahead := rest })
  | [], d :: rest => (d, { s with ahead := rest })
  | [], [] => (0, s)

/-- The step from one natural of a seeded sequence to the next. -/
def advanceSeed (state : Nat) : Nat :=
  (state * 6364136223846793005 + 1442695040888963407) % 1 <<< 64

/-- The first naturals of the sequence that a seed starts.  The low bits of its states repeat early
and are left out. -/
def ofSeed : (count : Nat) → (state : Nat) → List Nat
  | 0, _ => []
  | count + 1, state =>
      let next := advanceSeed state
      (next >>> 12) :: ofSeed count next

end Draws

/-- Draws an integer between two bounds, both included. -/
def between (low high : Int) : Draw Int := do
  let d : Nat ← Draws.next
  return low + Int.fmod d (high - low + 1)

def upTo (most : Nat) : Draw { n : Nat // n ≤ most } := do
  let d : Nat ← Draws.next
  return ⟨d % (most + 1), Nat.le_of_lt_succ (Nat.mod_lt d (Nat.succ_pos most))⟩

/-- The parts into which the unit interval is cut. -/
def parts : Nat := 1024

/-- Draws a number of the unit interval, as its part. -/
def part : Draw { n : Nat // n ≤ parts - 1 } :=
  upTo (parts - 1)

end PegPool.Probe
