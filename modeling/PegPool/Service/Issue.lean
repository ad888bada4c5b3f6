import PegPool.AmountText

/-!
# What is wrong with a body

A body is checked field by field, and everything that is wrong with it is told at once.  An `Issue`
says where, what, and on which value; `Checked` is a value or the issues found on the way to it, and
combining two checked values keeps the issues of both in order.
-/

namespace PegPool.Service

inductive Problem where
  | missing
  | notJson
  /-- No object where fields are to be taken from one. -/
  | notObject
  /-- No object where the named body is expected. -/
  | notBody (title : String)
  | extraField
  /-- A value that a rule of its own refuses. -/
  | refused (reason : String)
  | notInteger
  | notNumeral
  /-- An integer that is too long, or a double that is too large for one. -/
  | oversized
  /-- A double between two integers. -/
  | fractional
  | notFinite
  | belowLeast (least : Int)
  | aboveMost (most : Int)
  | notText
  /-- A text that is not made of characters alone. -/
  | illFormed
  /-- A text of too few characters. -/
  | tooShort (least : Nat)
  /-- A text of too many characters. -/
  | tooLong (most : Nat)
  /-- A text that does not have the form of a pattern. -/
  | mismatch (pattern : String)
  | noLabel (labels : List String)
deriving DecidableEq, Repr

namespace Problem

def type : Problem → String
  | missing => "missing"
  | notJson => "json_invalid"
  | notObject => "model_attributes_type"
  | notBody _ => "model_type"
  | extraField => "extra_forbidden"
  | refused _ => "value_error"
  | notInteger => "int_type"
  | notNumeral => "int_parsing"
  | oversized => "int_parsing_size"
  | fractional => "int_from_float"
  | notFinite => "finite_number"
  | belowLeast _ => "greater_than_equal"
  | aboveMost _ => "less_than_equal"
  | notText => "string_type"
  | illFormed => "string_unicode"
  | tooShort _ => "string_too_short"
  | tooLong _ => "string_too_long"
  | mismatch _ => "string_pattern_mismatch"
  | noLabel _ => "enum"

def labelList (labels : List String) : String :=
  " or ".intercalate (labels.map fun l => "'" ++ l ++ "'")

def message : Problem → String
  | missing => "Field required"
  | notJson => "JSON decode error"
  | notObject => "Input should be a valid dictionary or object to extract fields from"
  | notBody title => s!"Input should be a valid dictionary or instance of {title}"
  | extraField => "Extra inputs are not permitted"
  | refused reason => s!"Value error, {reason}"
  | notInteger => "Input should be a valid integer"
  | notNumeral => "Input should be a valid integer, unable to parse string as an integer"
  | oversized => "Unable to parse input string as an integer, exceeded maximum size"
  | fractional => "Input should be a valid integer, got a number with a fractional part"
  | notFinite => "Input should be a finite number"
  | belowLeast least => s!"Input should be greater than or equal to {least}"
  | aboveMost most => s!"Input should be less than or equal to {most}"
  | notText => "Input should be a valid string"
  | illFormed => "Input should be a valid string, unable to parse raw data as a unicode string"
  | tooShort least => s!"String should have at least {least} characters"
  | tooLong most => s!"String should have at most {most} characters"
  | mismatch pattern => s!"String should match pattern '{pattern}'"
  | noLabel labels => "Input should be " ++ labelList labels

/-- The bound or the form that the value does not keep to, by its name. -/
def context : Problem → Json.Members
  | refused _ => [("error", .obj [])]
  | belowLeast least => [("ge", least)]
  | aboveMost most => [("le", most)]
  | tooShort least => [("min_length", least)]
  | tooLong most => [("max_length", most)]
  | mismatch pattern => [("pattern", pattern)]
  | noLabel labels => [("expected", labelList labels)]
  | _ => []

end Problem

/-- Something that is wrong with a body. -/
structure Issue where
  path : List String
  problem : Problem
  /-- The value it is about; for a missing field the object around it. -/
  value : Json
deriving Repr

/-- The issue as it is reported, with the value as far as it is shown. -/
def Issue.toJson (i : Issue) : Json :=
  let context : Json.Members := match i.problem.context with
    | [] => []
    | members => [("ctx", .obj members)]
  .obj (("type", i.problem.type) :: ("loc", .arr (i.path.map fun (key : String) => Json.str key)) ::
    ("msg", i.problem.message) :: ("input", i.value.shown) :: context)

/-- A value, or what is wrong with what it was to be read from. -/
inductive Checked (α : Type) where
  | good (value : α)
  | bad (issues : List Issue)
deriving Repr

namespace Checked

variable {α β : Type}

def issues : Checked α → List Issue
  | good _ => []
  | bad issues => issues

def value? : Checked α → Option α
  | good a => some a
  | bad _ => none

def map (f : α → β) : Checked α → Checked β
  | good a => good (f a)
  | bad issues => bad issues

/-- Applies a checked function to a checked value, keeping the issues of both. -/
def apply (f : Checked (α → β)) (x : Checked α) : Checked β :=
  match f, x with
  | good f, good a => good (f a)
  | good _, bad issues => bad issues
  | bad issues, x => bad (issues ++ x.issues)

instance : Applicative Checked where
  pure := good
  map := map
  seq f x := apply f (x ())

def andThen (x : Checked α) (f : α → Checked β) : Checked β :=
  match x with
  | good a => f a
  | bad issues => bad issues

def issue (path : List String) (problem : Problem) (value : Json) : Checked α :=
  bad [⟨path, problem, value⟩]

end Checked

end PegPool.Service
