import PegPool.Text.Blank

/-!
# The code of a line

`CodeMode.strip` blanks out what is not code: text between quotes becomes as many spaces, and a
comment is cut off. A text that is opened by three quotes may go on over several lines, so a mode
is carried from one line to the next; a text that is opened by one quote ends with its line at the
latest.

`codeLines` keeps the numbered lines that hold code other than an import.
-/

namespace PegPool.Audit

/-- What the next character belongs to. -/
inductive CodeMode where
  | code
  /-- A text that was opened by this quote three times. -/
  | long (quote : Char)
  | short (quote : Char)
deriving DecidableEq, Repr

namespace CodeMode

def nextLine : CodeMode → CodeMode
  | short _ => code
  | m => m

def isLong : CodeMode → Bool
  | long _ => true
  | _ => false

/-- The code of a line, and the mode in which the next line begins. -/
def strip : CodeMode → List Char → List Char × CodeMode
  | m, [] => ([], m.nextLine)
  | code, '"' :: '"' :: '"' :: rest =>
      let (out, m) := strip (long '"') rest
      (' ' :: ' ' :: ' ' :: out, m)
  | code, '\'' :: '\'' :: '\'' :: rest =>
      let (out, m) := strip (long '\'') rest
      (' ' :: ' ' :: ' ' :: out, m)
  | long '"', '"' :: '"' :: '"' :: rest =>
      let (out, m) := strip code rest
      (' ' :: ' ' :: ' ' :: out, m)
  | long '\'', '\'' :: '\'' :: '\'' :: rest =>
      let (out, m) := strip code rest
      (' ' :: ' ' :: ' ' :: out, m)
  | long q, _ :: rest =>
      let (out, m) := strip (long q) rest
      (' ' :: out, m)
  | short q, c :: rest =>
      let (out, m) := strip (if c = q then code else short q) rest
      (' ' :: out, m)
  | code, c :: rest =>
      if c = '#' then ([], code)
      else if c = '"' ∨ c = '\'' then
        let (out, m) := strip (short c) rest
        (' ' :: out, m)
      else
        let (out, m) := strip code rest
        (c :: out, m)

end CodeMode

structure CodeLine where
  /-- Its number, from one. -/
  number : Nat
  /-- The line without the blanks at its end. -/
  line : List Char
  code : List Char
deriving DecidableEq, Repr

def importWords : List (List Char) :=
  ["from ".toList, "import ".toList]

/-- The code of a line is nothing to look at: blank, or an import. -/
def isIdle (code : List Char) : Bool :=
  let text := code.dropWhile Text.isBlank
  text.isEmpty || importWords.any fun w => w.isPrefixOf text

/-- The lines that hold code, from the given number and mode on. -/
def codeLinesFrom (number : Nat) (mode : CodeMode) : List (List Char) → List CodeLine
  | [] => []
  | line :: rest =>
      let (code, next) := mode.strip line
      let others := codeLinesFrom (number + 1) next rest
      if (mode.isLong && next.isLong) || isIdle code then others
      else ⟨number, Text.dropEnd Text.isBlank line, code⟩ :: others

def codeLines (lines : List (List Char)) : List CodeLine :=
  codeLinesFrom 1 .code lines

def splitLines : List Char → List (List Char)
  | [] => [[]]
  | c :: rest =>
      if c = '\n' then [] :: splitLines rest
      else match splitLines rest with
        | [] => [[c]]
        | line :: lines => (c :: line) :: lines

/-- Writes every line end as a line feed: alone, after a carriage return, or as a carriage return
alone. -/
def normalizeLineEnds : List Char → List Char
  | [] => []
  | '\r' :: '\n' :: rest => '\n' :: normalizeLineEnds rest
  | '\r' :: rest => '\n' :: normalizeLineEnds rest
  | c :: rest => c :: normalizeLineEnds rest

end PegPool.Audit
