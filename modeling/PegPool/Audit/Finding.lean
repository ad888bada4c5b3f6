import PegPool.Audit.Code
import PegPool.Audit.Pattern

/-!
# Findings

Pool arithmetic stays in checked integers. The audit reports lines that leave them: divisions that
are not rounded, decimals and doubles, and products of amounts whose width nobody checks. In tests
it reports tolerances of more than one unit that nobody explains.
-/

namespace PegPool.Audit

/-- How much a finding matters. -/
inductive Severity where
  | critical
  | high
  | medium
deriving DecidableEq, Repr

namespace Severity

def name : Severity → String
  | critical => "CRITICAL"
  | high => "HIGH"
  | medium => "MEDIUM"

def all : List Severity := [critical, high, medium]

def blocks : Severity → Bool
  | medium => false
  | _ => true

end Severity

inductive Rule where
  | trueDivision
  | decimalValue
  | floatValue
  | uncheckedProduct
  | undocumentedTolerance
deriving DecidableEq, Repr

namespace Rule

def pattern : Rule → String
  | trueDivision => "true division"
  | decimalValue => "Decimal value"
  | floatValue => "float value"
  | uncheckedProduct => "unchecked product"
  | undocumentedTolerance => "undocumented test tolerance"

def severity : Rule → Severity
  | trueDivision | decimalValue | floatValue => .critical
  | uncheckedProduct => .high
  | undocumentedTolerance => .medium

def message : Rule → String
  | trueDivision => "'/' produces a float"
  | decimalValue => "Decimal rounding differs from floor on integers"
  | floatValue => "Float in integer math"
  | uncheckedProduct => "Multiplication of amounts without a width check"
  | undocumentedTolerance => "Test uses a tolerance without explaining it"

def suggestion : Rule → String
  | trueDivision => "Use // on SafeInt, or mul_div for scaled amounts"
  | decimalValue => "Use SafeInt floor division"
  | floatValue => "Keep amounts as int and ratios as numerator/denominator"
  | uncheckedProduct => "Wrap with S(...) and narrow with to_u64()"
  | undocumentedTolerance => "Add a comment on why the tolerance is acceptable"

end Rule

/-- A line that breaks a rule. -/
structure Finding where
  number : Nat
  line : List Char
  rule : Rule
deriving DecidableEq, Repr

/-- A rule on the line, if it is broken. -/
def CodeLine.finding (l : CodeLine) (rule : Rule) (broken : Bool) : List Finding :=
  if broken then [⟨l.number, l.line, rule⟩] else []

def CodeLine.floatFindings (l : CodeLine) : List Finding :=
  l.finding .trueDivision (hasTrueDivision l.code) ++
    l.finding .decimalValue (occurs "Decimal".toList l.code) ++
    l.finding .floatValue (occurs "float(".toList l.code || hasFloatLiteral l.code)

def floatFindings (lines : List (List Char)) : List Finding :=
  (codeLines lines).flatMap CodeLine.floatFindings

def productFindings (lines : List (List Char)) : List Finding :=
  (codeLines lines).flatMap fun l => l.finding .uncheckedProduct (hasUncheckedProduct l.code)

def findings (lines : List (List Char)) : List Finding :=
  floatFindings lines ++ productFindings lines

/-- A tolerance is explained by a comment on its line, or by a comment on the line before. -/
def isExplained (lines : List (List Char)) (l : CodeLine) : Bool :=
  l.line.contains '#' ||
    (decide (1 < l.number) &&
      match lines[l.number - 2]? with
      | some before => startsWith (· == '#') (before.dropWhile Text.isBlank)
      | none => false)

def toleranceFindings (lines : List (List Char)) : List Finding :=
  (codeLines lines).flatMap fun l =>
    l.finding .undocumentedTolerance <| match tolerance? l.code with
      | none => false
      | some digits => !isTight digits && !isExplained lines l

end PegPool.Audit
