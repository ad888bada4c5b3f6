import PegPool.Arguments
import PegPool.Event

/-!
# How a command ends

A command ends with an exit code and with what there is to show: a text, events, or what is wrong
with its arguments.
-/

namespace PegPool

structure Ending where
  code : Nat
  printed : String := ""
  events : List Event := []
  complaint : Option Arguments.UsageError := none
deriving DecidableEq, Repr

namespace Ending

/-- The exit code after arguments that are refused. -/
def usageCode : Nat := 2

def ofHelp (text : String) : Ending := { code := 0, printed := text }

def ofComplaint (e : Arguments.UsageError) : Ending := { code := usageCode, complaint := some e }

def ofOutcome {σ : Type} (help : String) (work : σ → Ending) : Arguments.Outcome σ → Ending
  | .settings s => work s
  | .help => ofHelp help
  | .refused e => ofComplaint e

end Ending

end PegPool
