import PegPool.Text.DecimalDigit

/-!
# Arguments of a command

A command has switches that change its settings, and no other arguments. A long name (`--name`) may
be cut short as long as one switch alone begins that way, and takes its value as `--name=value` or
from the next argument. A short name (`-n`) may have its value or further short names directly
behind it. An argument after `--`, one that holds a blank and a negative number are values, never
switches.

`parse` first tells what each argument is, so that an ambiguous one is refused whatever comes
before it. Then the switches take effect from left to right, until one asks for help or is used
wrongly. An argument that nothing takes is refused last.
-/

namespace PegPool.Arguments

/-- What a switch does to the settings. -/
inductive Effect (σ : Type) where
  | set (change : σ → σ)
  /-- It takes a value; some texts are none. -/
  | read (change : String → Option (σ → σ))
  | help

structure Switch (σ : Type) where
  /-- Its names, with the dashes. -/
  names : List String
  effect : Effect σ

inductive UsageError where
  /-- More than one switch begins that way. -/
  | ambiguous (argument : String)
  /-- The switch takes no value but has one. -/
  | unexpectedValue (name : String)
  /-- The switch takes a value but has none. -/
  | missingValue (name : String)
  /-- The switch does not take this value. -/
  | badValue (value : String)
  /-- Nothing takes these arguments. -/
  | unrecognized (arguments : List String)
deriving DecidableEq, Repr

def UsageError.message : UsageError → String
  | ambiguous argument => s!"ambiguous option: {argument}"
  | unexpectedValue name => s!"option {name} takes no value"
  | missingValue name => s!"option {name} expects a value"
  | badValue value => s!"invalid value: {value}"
  | unrecognized arguments => "unrecognized arguments: " ++ " ".intercalate arguments

inductive Outcome (σ : Type) where
  | settings (s : σ)
  | help
  | refused (e : UsageError)

/-- What stands behind the name of a switch in one argument. -/
inductive Attached where
  | nothing
  | value (text : String)
  /-- A value or further short names. -/
  | letters (text : List Char)
deriving DecidableEq, Repr

inductive Token (σ : Type) where
  | plain (text : String)
  | separator
  /-- A switch, with what is attached to its name. -/
  | switch (name : String) (effect : Effect σ) (attached : Attached)
  /-- It looks like a switch but is none. -/
  | unknown (text : String)

variable {σ : Type}

def named? (switches : List (Switch σ)) (name : String) : Option (Effect σ) :=
  (switches.find? fun s => s.names.contains name).map fun s => s.effect

def isLong (name : List Char) : Bool :=
  name.take 2 == ['-', '-']

def nameOf (text : List Char) : List Char :=
  text.takeWhile (· != '=')

def valueOf (text : List Char) : Attached :=
  match text.dropWhile (· != '=') with
  | '=' :: value => .value (String.ofList value)
  | _ => .nothing

/-- The text is a number with a minus before it; one line end may follow. -/
def isNegativeNumber (text : List Char) : Bool :=
  let text := if text.getLast? == some '\n' then text.dropLast else text
  match text with
  | '-' :: digits =>
      match digits.dropWhile Text.isDecimalDigit with
      | [] => !digits.isEmpty
      | '.' :: decimals => !decimals.isEmpty && decimals.all Text.isDecimalDigit
      | _ => false
  | _ => false

def abbreviation? (text : List Char) (name : String) (effect : Effect σ) : Option (Token σ) :=
  if isLong text then
    if (nameOf text).isPrefixOf name.toList then some (.switch name effect (valueOf text)) else none
  else if name.toList == text.take 2 then
    some (.switch name effect (.letters (text.drop 2)))
  else none

def abbreviations (switches : List (Switch σ)) (text : List Char) : List (Token σ) :=
  switches.flatMap fun s => s.names.filterMap fun name => abbreviation? text name s.effect

/-- The switch that is written out, with a value behind a sign of equality if it has one. -/
def written? (switches : List (Switch σ)) (text : List Char) : Option (Token σ) :=
  match named? switches (String.ofList text) with
  | some effect => some (.switch (String.ofList text) effect .nothing)
  | none =>
      let name := String.ofList (nameOf text)
      (named? switches name).map fun effect => .switch name effect (valueOf text)

/-- Tells what an argument before the separator is. -/
def token (switches : List (Switch σ)) (argument : String) : Except UsageError (Token σ) :=
  match argument.toList with
  | '-' :: second :: rest =>
      let text := '-' :: second :: rest
      match written? switches text with
      | some t => .ok t
      | none => match abbreviations switches text with
        | [t] => .ok t
        | [] =>
            .ok (if isNegativeNumber text || text.contains ' ' then .plain argument
              else .unknown argument)
        | _ => .error (.ambiguous argument)
  | _ => .ok (.plain argument)

def tokens (switches : List (Switch σ)) : List String → Except UsageError (List (Token σ))
  | [] => .ok []
  | argument :: rest =>
      if argument = "--" then .ok (.separator :: rest.map .plain)
      else do return (← token switches argument) :: (← tokens switches rest)

/-- What a use of a switch does. -/
structure Use (σ : Type) where
  /-- The effects, in order; only the last one may take a value. -/
  effects : List (Effect σ)
  value : Option String := none
  strays : List String := []

/-- The use that an effect and the letters behind its name spell.  They end with a value, with a
switch, or with letters that are none. -/
def spellLetters (switches : List (Switch σ)) (name : String) :
    Effect σ → List Char → Except UsageError (Use σ)
  | e, [] => .ok { effects := [e] }
  | .read f, '=' :: cs => .ok { effects := [.read f], value := some (String.ofList cs) }
  | .read f, cs => .ok { effects := [.read f], value := some (String.ofList cs) }
  | e, c :: cs =>
      if c = '=' ∨ c = '-' then .error (.unexpectedValue name)
      else match named? switches (String.ofList ['-', c]) with
        | none => .ok { effects := [e], strays := [String.ofList ('-' :: c :: cs)] }
        | some next => do
            let use ← spellLetters switches name next cs
            return { use with effects := e :: use.effects }

def spell (switches : List (Switch σ)) (name : String) (e : Effect σ) :
    Attached → Except UsageError (Use σ)
  | .nothing => .ok { effects := [e] }
  | .letters cs => spellLetters switches name e cs
  | .value text => match e with
    | .read _ => .ok { effects := [e], value := some text }
    | _ => .error (.unexpectedValue name)

def Use.lacksValue (u : Use σ) : Bool :=
  u.value.isNone && u.effects.any fun
    | .read _ => true
    | _ => false

def applyAll (value : String) : List (Effect σ) → σ → Outcome σ
  | [], s => .settings s
  | .set change :: rest, s => applyAll value rest (change s)
  | .help :: _, _ => .help
  | .read change :: rest, s => match change value with
    | some f => applyAll value rest (f s)
    | none => .refused (.badValue value)

/-- Lets the arguments change the settings, from left to right; `strays` are the arguments so far
that nothing took, the latest first. -/
def run (switches : List (Switch σ)) (strays : List String) (s : σ) : List (Token σ) → Outcome σ
  | [] => if strays.isEmpty then .settings s else .refused (.unrecognized strays.reverse)
  | .plain text :: rest => run switches (text :: strays) s rest
  | .unknown text :: rest => run switches (text :: strays) s rest
  | .separator :: rest => run switches ("--" :: strays) s rest
  | .switch name effect attached :: rest =>
      match spell switches name effect attached with
      | .error e => .refused e
      | .ok use =>
          if use.lacksValue then
            match rest with
            | .plain value :: others => match applyAll value use.effects s with
              | .settings next => run switches (use.strays ++ strays) next others
              | outcome => outcome
            | _ => .refused (.missingValue name)
          else match applyAll (use.value.getD "") use.effects s with
            | .settings next => run switches (use.strays ++ strays) next rest
            | outcome => outcome

def parse (switches : List (Switch σ)) (s : σ) (arguments : List String) : Outcome σ :=
  match tokens switches arguments with
  | .error e => .refused e
  | .ok ts => run switches [] s ts

end PegPool.Arguments
