import PegPool.Audit.Report
import PegPool.Ending

/-!
# The audit command

Reads the arguments, audits a checkout and says what is printed and how the command ends.
-/

namespace PegPool.Audit

/-- What a caller may ask of an audit. -/
structure Settings where
  /-- Show the lines and what to do about them. -/
  verbose : Bool := false
  includeTests : Bool := false
deriving DecidableEq, Repr

def switches : List (Arguments.Switch Settings) :=
  [⟨["-h", "--help"], .help⟩,
    ⟨["--verbose", "-v"], .set fun s => { s with verbose := true }⟩,
    ⟨["--include-tests"], .set fun s => { s with includeTests := true }⟩]

def helpText (program : String) : String :=
  s!"usage: {program} [-h] [--verbose] [--include-tests]\n" ++
  "\nInteger-math linter for the stable swap engine\n" ++
  "\noptions:\n" ++
  "  -h, --help       show this help message and exit\n" ++
  "  --verbose, -v\n" ++
  "  --include-tests\n"

/-- These arguments ask for an audit, so that the files are needed. -/
def asksForFiles (arguments : List String) : Bool :=
  match Arguments.parse switches {} arguments with
  | .settings _ => true
  | _ => false

/-- Runs the command with its arguments on the files of a checkout at `base`. -/
def command (program : String) (base : Path) (files : List File)
    (arguments : List String) : Ending :=
  Ending.ofOutcome (helpText program) (fun s =>
    let found := treeFindings base s.includeTests files
    { code := exitCode found, printed := reportText s.verbose found })
    (Arguments.parse switches {} arguments)

end PegPool.Audit
