import PegPool.Ending
import PegPool.Probe.Series
import PegPool.Text.Numeral

/-!
# The probe command

Reads the arguments, runs a series of probes and says what happened and how the command ends.
-/

namespace PegPool.Probe

structure Settings where
  /-- How many probes to run; a negative number runs none. -/
  iterations : Int := 10000
  /-- The seed of the draws, which the last event repeats. -/
  seed : Int := 0
  /-- Show events of every level. -/
  verbose : Bool := false
deriving DecidableEq, Repr

def integer (change : Int → Settings → Settings) : Arguments.Effect Settings :=
  .read fun text => match Text.readNumeral text.toList with
    | .ok n => some (change n)
    | .error _ => none

def switches : List (Arguments.Switch Settings) :=
  [⟨["-h", "--help"], .help⟩,
    ⟨["--iterations", "-n"], integer fun n s => { s with iterations := n }⟩,
    ⟨["--seed"], integer fun n s => { s with seed := n }⟩,
    ⟨["--verbose", "-v"], .set fun s => { s with verbose := true }⟩]

/-- Runs a series and tells what it came to. -/
def report (cap : Nat) (s : Settings) (draws : Draws) : Traced Empty Tally := do
  let tally ← runSeries cap s.iterations.toNat draws
  Traced.log (.probesCompleted s.seed tally.cases tally.failures tally.violations)
  return tally

def exitCode (t : Tally) : Nat :=
  if t.violations = 0 then 0 else 1

def helpText (program : String) : String :=
  s!"usage: {program} [-h] [--iterations ITERATIONS] [--seed SEED] [--verbose]\n" ++
  "\nFuzz single-asset withdrawals\n" ++
  "\noptions:\n" ++
  "  -h, --help            show this help message and exit\n" ++
  "  --iterations ITERATIONS, -n ITERATIONS\n" ++
  "  --seed SEED\n" ++
  "  --verbose, -v\n"

/-- Runs the command with its arguments; the draws may depend on what they ask for. -/
def command (cap : Nat) (program : String) (draws : Settings → Draws) (arguments : List String) :
    Ending :=
  Ending.ofOutcome (helpText program) (fun s =>
    let x := report cap s (draws s)
    { code := exitCode x.value, events := x.events })
    (Arguments.parse switches {} arguments)

def shows (arguments : List String) (e : Event) : Bool :=
  match Arguments.parse switches {} arguments with
  | .settings s => s.verbose || e.level != .debug
  | _ => false

end PegPool.Probe
