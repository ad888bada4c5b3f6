import PegPool.Audit.Command
import PegPool.Json.Reader
import PegPool.Json.Writer
import PegPool.Probe.Command

/-!
# The command line

`audit` reads an object from paths to texts on standard input and prints the report on these files;
`probe` runs a series of probes and prints its events, one value a line.  Everything but reading and
printing is done by `Audit.command` and `Probe.command`.
-/

namespace PegPool.CommandLine

/-- The most probes for which every draw is a new one. -/
def maxFreshProbes : Nat := 100000

/-- More draws than one probe takes. -/
def drawsPerProbe : Nat := 16

def drawsFor (s : Probe.Settings) : Probe.Draws :=
  .ofList (Probe.Draws.ofSeed (drawsPerProbe * min s.iterations.toNat maxFreshProbes)
    (s.seed % (1 <<< 64 : Nat)).toNat)

partial def readAll (input : IO.FS.Stream) (text : String) : IO String := do
  let line ← input.getLine
  if line.isEmpty then return text else readAll input (text ++ line)

/-- Shows how a command ends; the events are those that `shows` selects. -/
def finish (shows : Event → Bool) (e : Ending) : IO UInt32 := do
  (← IO.getStdout).putStr e.printed
  for event in e.events.filter shows do
    (← IO.getStdout).putStrLn event.toJson.render
  if let some complaint := e.complaint then
    (← IO.getStderr).putStrLn complaint.message
  return e.code.toUInt32

def refuse (message : String) : IO UInt32 := do
  (← IO.getStderr).putStrLn message
  return Ending.usageCode.toUInt32

def audit (arguments : List String) : IO UInt32 := do
  let text ← if Audit.asksForFiles arguments then readAll (← IO.getStdin) "" else pure "\x7b\x7d"
  match (Json.read? text).toOption.bind Audit.filesOfJson? with
  | some files => finish (fun _ => true) (Audit.command "audit" [] files arguments)
  | none => refuse "an object from paths to texts is expected"

def probe (arguments : List String) : IO UInt32 :=
  finish (Probe.shows arguments) (Probe.command Curve.defaultCap "probe" drawsFor arguments)

/-- Runs the command that the first argument names. -/
def run : List String → IO UInt32
  | "audit" :: arguments => audit arguments
  | "probe" :: arguments => probe arguments
  | _ => refuse "a command is expected: audit or probe"

end PegPool.CommandLine

def main (arguments : List String) : IO UInt32 :=
  PegPool.CommandLine.run arguments
