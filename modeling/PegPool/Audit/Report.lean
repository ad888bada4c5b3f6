import PegPool.Audit.Tree

/-!
# The report of an audit

A table of how many findings there are, then the findings by severity. The last line says whether
they stop a release, and so does the exit code.
-/

namespace PegPool.Audit

def ruler : String :=
  String.ofList (List.replicate 70 '=')

def padRight (width : Nat) (s : String) : String :=
  s ++ String.ofList (List.replicate (width - s.length) ' ')

def padLeft (width : Nat) (s : String) : String :=
  String.ofList (List.replicate (width - s.length) ' ') ++ s

def countLine (label : String) (n : Nat) : String :=
  s!"  {padRight 10 label} {padLeft 4 (toString n)}"

def findingLines (verbose : Bool) (f : FileFinding) : List String :=
  let rule := f.finding.rule
  [s!"  {f.path.text}:{f.finding.number}", s!"    {rule.pattern}: {rule.message}"] ++
    (if verbose then
      ["    > " ++ String.ofList ((Text.trim Text.isBlank f.finding.line).take 70),
        s!"    Suggestion: {rule.suggestion}"]
    else []) ++ [""]

def ofSeverity (s : Severity) (found : List FileFinding) : List FileFinding :=
  found.filter fun f => f.finding.rule.severity == s

def severityLines (verbose : Bool) (s : Severity) (found : List FileFinding) : List String :=
  match ofSeverity s found with
  | [] => []
  | chosen =>
      ["", s!"[{s.name}] {chosen.length} issue(s):", ""] ++ chosen.flatMap (findingLines verbose)

def tableLines (found : List FileFinding) : List String :=
  Severity.all.flatMap fun s =>
    match ofSeverity s found with
    | [] => []
    | chosen => [countLine s.name chosen.length]

def reportLines (verbose : Bool) (found : List FileFinding) : List String :=
  (if found.isEmpty then ["✓ No unsafe math patterns found!"]
  else
    ["", ruler, "SAFE MATH AUDIT RESULTS", ruler] ++ tableLines found ++
      [countLine "TOTAL" found.length, ruler, ""] ++
      Severity.all.flatMap fun s => severityLines verbose s found) ++
  [if blocks found then "❌ Blocking issues found - must fix before commit"
    else "✓ No blocking issues"]

def reportText (verbose : Bool) (found : List FileFinding) : String :=
  String.join ((reportLines verbose found).map (· ++ "\n"))

def exitCode (found : List FileFinding) : Nat :=
  if blocks found then 1 else 0

end PegPool.Audit
