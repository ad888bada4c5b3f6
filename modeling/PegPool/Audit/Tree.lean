import PegPool.Audit.Finding
import PegPool.Json

/-!
# Auditing a tree of files

A checkout is a directory with files at paths below it.  The sources of the package and, on request,
the tests are audited; a source is left out if its whole path mentions one of `skipMarks`.
-/

namespace PegPool.Audit

/-- The names that lead to a file. -/
abbrev Path := List String

def Path.text (p : Path) : String :=
  "/".intercalate p

def Path.ofText (s : String) : Path :=
  (s.splitOn "/").filter fun part => !part.isEmpty

def Path.before : Path → Path → Bool
  | [], _ => true
  | _ :: _, [] => false
  | x :: xs, y :: ys => if x = y then Path.before xs ys else decide (x < y)

structure File where
  path : Path
  text : String
deriving DecidableEq, Repr

/-- The files of an object that maps paths to texts; a member that is no text is no file. -/
def filesOfJson? : Json → Option (List File)
  | .obj members => members.mapM fun
      | (.plain path, .str (.plain text)) => some ⟨Path.ofText path, text⟩
      | _ => none
  | _ => none

def File.lines (f : File) : List (List Char) :=
  splitLines (normalizeLineEnds f.text.toList)

def sourceDirectory : String := "stableswap"

def testDirectory : String := "tests"

def skipMarks : List String := ["__pycache__", "api/", "models/"]

def File.isProgramIn (f : File) (directory : String) : Bool :=
  match f.path with
  | top :: rest => top == directory && (rest.getLast?.any fun name => name.endsWith ".py")
  | [] => false

/-- The path of a file in a checkout at `base`, from the root of the file system. -/
def File.absolute (base : Path) (f : File) : String :=
  "/" ++ Path.text (base ++ f.path)

def File.isSkipped (base : Path) (f : File) : Bool :=
  skipMarks.any fun mark => occurs mark.toList (f.absolute base).toList

structure FileFinding where
  path : Path
  finding : Finding
deriving DecidableEq, Repr

def File.report (f : File) (found : List (List Char) → List Finding) : List FileFinding :=
  (found f.lines).map fun x => ⟨f.path, x⟩

/-- Puts a file among others; a file at the same path is replaced. -/
def insertFile (f : File) (files : List File) : List File :=
  f :: files.filter fun g => g.path != f.path

/-- The files, one for a path, in the order of their paths. -/
def inOrder (files : List File) : List File :=
  (files.foldl (fun acc f => insertFile f acc) []).mergeSort
    fun f g => Path.before f.path g.path

def sourceFindings (base : Path) (files : List File) : List FileFinding :=
  ((inOrder files).filter fun f => f.isProgramIn sourceDirectory && !f.isSkipped base).flatMap
    fun f => f.report findings

def testFindings (files : List File) : List FileFinding :=
  ((inOrder files).filter fun f => f.isProgramIn testDirectory).flatMap
    fun f => f.report toleranceFindings

def treeFindings (base : Path) (includeTests : Bool) (files : List File) : List FileFinding :=
  sourceFindings base files ++ (if includeTests then testFindings files else [])

def blocks (found : List FileFinding) : Bool :=
  found.any fun f => f.finding.rule.severity.blocks

end PegPool.Audit
