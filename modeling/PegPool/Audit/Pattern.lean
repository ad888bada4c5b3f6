import PegPool.Text.Blank
import PegPool.Text.DecimalDigit
import PegPool.Text.WordChar

/-!
# Patterns in code

What the audit looks for in the code of a line, each as one pass from left to right: a division that
is not rounded, a double, a product, and a tolerance.
-/

namespace PegPool.Audit

open PegPool.Text

def occurs (needle : List Char) : List Char → Bool
  | [] => needle.isEmpty
  | c :: rest => needle.isPrefixOf (c :: rest) || occurs needle rest

def startsWith (p : Char → Bool) : List Char → Bool
  | [] => false
  | c :: _ => p c

/-! ## True division -/

/-- The character may end the left operand of a division. -/
def endsOperand (c : Char) : Bool :=
  isWordChar c || c == ')'

/-- The character may begin the right operand of a division. -/
def beginsOperand (c : Char) : Bool :=
  isWordChar c || c == '('

/-- A single slash stands between operands; `before` is the last character before that is not
blank. -/
def divisionFrom (before : Option Char) : List Char → Bool
  | [] => false
  | c :: rest =>
      (c == '/' && before.any endsOperand && !startsWith (· == '/') rest &&
        startsWith beginsOperand (rest.dropWhile isBlank)) ||
      divisionFrom (if isBlank c then before else some c) rest

/-- The code has a slash, not followed by another one, between two operands. -/
def hasTrueDivision (code : List Char) : Bool :=
  divisionFrom none code

/-! ## Doubles -/

def startsFraction : List Char → Bool
  | '.' :: d :: _ => isDecimalDigit d
  | _ => false

/-- Digits with a fraction behind them stand where neither a word nor a point comes before. -/
def literalFrom (before : Option Char) : List Char → Bool
  | [] => false
  | c :: rest =>
      (isDecimalDigit c && !before.any (fun b => isWordChar b || b == '.') &&
        startsFraction (rest.dropWhile isDecimalDigit)) ||
      literalFrom (some c) rest

def hasFloatLiteral (code : List Char) : Bool :=
  literalFrom none code

/-! ## Products -/

/-- The first product of two words; `left` is the word, latest character first, that ends at the
last character that is not blank, and `adjacent` tells that no blank came after it. -/
def productFrom (left : List Char) (adjacent : Bool) :
    List Char → Option (List Char × List Char)
  | [] => none
  | c :: rest =>
      if isWordChar c then productFrom (if adjacent then c :: left else [c]) true rest
      else if isBlank c then productFrom left false rest
      else
        let right := (rest.dropWhile isBlank).takeWhile isWordChar
        if c == '*' && !left.isEmpty && !startsWith (· == '*') rest && !right.isEmpty then
          some (left.reverse, right)
        else productFrom [] false rest

/-- The words of the first product in the code: a single star between two words. -/
def firstProduct? (code : List Char) : Option (List Char × List Char) :=
  productFrom [] false code

def amountWords : List (List Char) :=
  ["amount", "reserve", "fee", "balance", "supply", "mint"].map String.toList

/-- The text mentions an amount, in any case. -/
def mentionsAmount (text : List Char) : Bool :=
  amountWords.any fun w => occurs w (text.map Char.toLower)

def checksWidth (code : List Char) : Bool :=
  occurs "S(".toList code || occurs "mul_div".toList code

/-- The first product of the code is one of amounts, and the code does not check its width. -/
def hasUncheckedProduct (code : List Char) : Bool :=
  match firstProduct? code with
  | none => false
  | some (left, right) => !checksWidth code && mentionsAmount (left ++ ' ' :: right)

/-! ## Tolerances -/

def isToleranceChar (c : Char) : Bool :=
  isDecimalDigit c || c == '_'

/-- What comes after a comparison sign: less or greater, with or without equal. -/
def afterComparison? : List Char → Option (List Char)
  | '<' :: '=' :: rest => some rest
  | '>' :: '=' :: rest => some rest
  | '<' :: rest => some rest
  | '>' :: rest => some rest
  | _ => none

/-- The number that the value of a call with something in its parentheses is compared with. -/
def toleranceAfterName? (cs : List Char) : Option (List Char) :=
  match cs.dropWhile isBlank with
  | '(' :: inside =>
      if startsWith (· != ')') inside then
        match inside.dropWhile (· != ')') with
        | ')' :: rest => do
            let rest ← afterComparison? (rest.dropWhile isBlank)
            let digits := (rest.dropWhile isBlank).takeWhile isToleranceChar
            if digits.isEmpty then none else some digits
        | _ => none
      else none
  | _ => none

/-- The first tolerance in the code: the number that the value of `abs(…)` is compared with. -/
def tolerance? : List Char → Option (List Char)
  | [] => none
  | c :: rest =>
      match (c :: rest).take 3 == "abs".toList, toleranceAfterName? (rest.drop 2) with
      | true, some digits => some digits
      | _, _ => tolerance? rest

/-- The tolerance is at most one unit. -/
def isTight (digits : List Char) : Bool :=
  let value := digits.filter (· != '_')
  value == ['0'] || value == ['1']

end PegPool.Audit
