import Mathlib.Data.List.TakeWhile
import PegPool.Proofs.Audit.Lines

/-!
# Divisions that are found

A slash that stands next to no other slash divides (`LoneSlash`).  The audit finds it exactly if what
stands before it is the end of a word or a closing parenthesis, and what stands behind it is the
beginning of a word or an opening parenthesis (`hasTrueDivision_iff`).  Every line that it reports holds
a lone slash, but a lone slash beside any other character is passed over (`divisions_found_iff`): behind
a subscript, before a sign, in an augmented assignment, at an end of the line.
-/

namespace PegPool

namespace Audit

open Text

/-! ## Slashes between operands -/

def visibleBefore (cs : List Char) : Option Char :=
  cs.reverse.find? fun c => !isBlank c

def visibleAfter (cs : List Char) : Option Char :=
  cs.find? fun c => !isBlank c

/-- A slash between the two parts of the code, with no other slash beside it. -/
structure LoneSlash (code before after : List Char) : Prop where
  split : code = before ++ '/' :: after
  aloneBefore : before.getLast? ≠ some '/'
  aloneAfter : after.head? ≠ some '/'

/-- A slash that is not followed by another one, between operands; `last` is the last visible character
before the first part. -/
structure Divides (last : Option Char) (before after : List Char) : Prop where
  left : ((visibleBefore before).or last).any endsOperand = true
  aloneAfter : after.head? ≠ some '/'
  right : (visibleAfter after).any beginsOperand = true

theorem visibleBefore_cons (c : Char) (cs : List Char) :
    visibleBefore (c :: cs) = (visibleBefore cs).or (if isBlank c then none else some c) := by
  rw [visibleBefore, List.reverse_cons, List.find?_append, List.find?_singleton]
  cases isBlank c with
  | true => rfl
  | false => rfl

theorem startsWith_eq (p : Char → Bool) (cs : List Char) : startsWith p cs = cs.head?.any p := by
  cases cs with
  | nil => rfl
  | cons c cs => rfl

theorem startsWith_dropWhile (p : Char → Bool) (cs : List Char) :
    startsWith p (cs.dropWhile isBlank) = (visibleAfter cs).any p := by
  rw [startsWith_eq, visibleAfter, List.find?_eq_head?_dropWhile_not]
  simp only [Bool.not_not]

theorem startsWith_slash (cs : List Char) : startsWith (· == '/') cs = false ↔ cs.head? ≠ some '/' := by
  rw [startsWith_eq]
  cases cs with
  | nil => simp
  | cons d cs => simp

theorem divides_nil {last : Option Char} {c : Char} {rest : List Char} :
    (c == '/' && last.any endsOperand && !startsWith (· == '/') rest &&
      startsWith beginsOperand (rest.dropWhile isBlank)) = true ↔ c = '/' ∧ Divides last [] rest := by
  simp only [Bool.and_eq_true, Bool.not_eq_true', beq_iff_eq, startsWith_slash, startsWith_dropWhile]
  constructor
  · rintro ⟨⟨⟨isSlash, left⟩, alone⟩, right⟩
    exact ⟨isSlash, left, alone, right⟩
  · rintro ⟨isSlash, left, alone, right⟩
    exact ⟨⟨⟨isSlash, left⟩, alone⟩, right⟩

theorem divides_cons {last : Option Char} {c : Char} {before after : List Char} :
    Divides last (c :: before) after ↔ Divides (if isBlank c then last else some c) before after := by
  have lasts : (visibleBefore (c :: before)).or last =
      (visibleBefore before).or (if isBlank c then last else some c) := by
    rw [visibleBefore_cons, Option.or_assoc]
    cases isBlank c with
    | true => rfl
    | false => rfl
  constructor
  · rintro ⟨left, alone, right⟩
    exact ⟨lasts ▸ left, alone, right⟩
  · rintro ⟨left, alone, right⟩
    exact ⟨lasts ▸ left, alone, right⟩

theorem divisionFrom_iff {last : Option Char} {code : List Char} : divisionFrom last code = true ↔
    ∃ before after, code = before ++ '/' :: after ∧ Divides last before after := by
  induction code generalizing last with
  | nil =>
    refine ⟨nofun, ?_⟩
    rintro ⟨before, after, split, -⟩
    exact absurd split.symm (List.append_ne_nil_of_right_ne_nil _ (List.cons_ne_nil _ _))
  | cons c rest ih =>
    rw [divisionFrom, Bool.or_eq_true, divides_nil, ih, exists_split_cons]
    simp only [divides_cons]

theorem endsOperand_slash : endsOperand '/' = false := by decide

theorem Divides.loneSlash {before after : List Char} (divides : Divides none before after) :
    LoneSlash (before ++ '/' :: after) before after := by
  refine ⟨rfl, fun isSlash => ?_, divides.aloneAfter⟩
  obtain ⟨init, rfl⟩ := List.getLast?_eq_some_iff.mp isSlash
  have left := divides.left
  rw [visibleBefore, List.reverse_append, Option.or_none] at left
  change endsOperand '/' = true at left
  rw [endsOperand_slash] at left
  cases left

/-- The code divides. -/
def HasDivision (code : List Char) : Prop :=
  ∃ before after, LoneSlash code before after

/-- The code divides one operand by another: a lone slash has the end of a word or of parentheses before
it, and the beginning of a word or of parentheses behind it. -/
def HasQuotient (code : List Char) : Prop :=
  ∃ before after, LoneSlash code before after ∧ (visibleBefore before).any endsOperand = true ∧
    (visibleAfter after).any beginsOperand = true

theorem HasQuotient.hasDivision {code : List Char} (quotient : HasQuotient code) :
    HasDivision code := by
  obtain ⟨before, after, slash, -, -⟩ := quotient
  exact ⟨before, after, slash⟩

theorem hasTrueDivision_iff {code : List Char} : hasTrueDivision code = true ↔ HasQuotient code := by
  rw [hasTrueDivision, divisionFrom_iff]
  constructor
  · rintro ⟨before, after, rfl, divides⟩
    have left := divides.left
    rw [Option.or_none] at left
    exact ⟨before, after, divides.loneSlash, left, divides.right⟩
  · rintro ⟨before, after, slash, left, right⟩
    refine ⟨before, after, slash.split, ?_, slash.aloneAfter, right⟩
    rw [Option.or_none]
    exact left

/-! ## Lines with a division -/

def Reported (lines : List (List Char)) (l : CodeLine) : Prop :=
  ⟨l.number, l.line, .trueDivision⟩ ∈ floatFindings lines

theorem number_of_mem_floatFindings (l : CodeLine) : ∀ f ∈ l.floatFindings, f.number = l.number := by
  intro f member
  rw [CodeLine.floatFindings, List.mem_append, List.mem_append, CodeLine.mem_finding,
    CodeLine.mem_finding, CodeLine.mem_finding] at member
  obtain (⟨-, rfl⟩ | ⟨-, rfl⟩) | ⟨-, rfl⟩ := member
  all_goals rfl

theorem reported_iff {lines : List (List Char)} {l : CodeLine} (member : l ∈ codeLines lines) :
    Reported lines l ↔ HasQuotient l.code := by
  rw [← hasTrueDivision_iff, Reported, floatFindings,
    mem_flatMap_findings member number_of_mem_floatFindings rfl, CodeLine.floatFindings]
  simp [CodeLine.mem_finding]

/-- Every lone slash of the code has these visible characters beside it, or none. -/
def Beside (left right : Option Char) (code : List Char) : Prop :=
  ∀ before after, LoneSlash code before after →
    visibleBefore before = left ∧ visibleAfter after = right

/-- What may stand beside a slash: nothing, or a visible character of code other than a slash. -/
def Neighbour (c? : Option Char) : Prop :=
  ∀ c, c? = some c → IsCode c ∧ isBlank c = false ∧ c ≠ '/'

def slashBetween (left right : Option Char) : List Char :=
  left.toList ++ '/' :: right.toList

section Between

variable {left right : Option Char}

theorem isCode_slashBetween (isLeft : Neighbour left) (isRight : Neighbour right) :
    ∀ c ∈ slashBetween left right, IsCode c := by
  intro c member
  rw [slashBetween, List.mem_append, List.mem_cons, Option.mem_toList, Option.mem_toList] at member
  obtain isSome | rfl | isSome := member
  · exact (isLeft c isSome).1
  · decide
  · exact (isRight c isSome).1

theorem not_isIdle_slashBetween (isLeft : Neighbour left) :
    isIdle (slashBetween left right) = false := by
  have visible : (slashBetween left right).dropWhile isBlank = slashBetween left right := by
    cases left with
    | none => rfl
    | some c =>
      have notBlank := (isLeft c rfl).2.1
      exact List.dropWhile_cons_of_neg (Bool.eq_false_iff.mp notBlank)
  have short : (slashBetween left right).length ≤ 3 := by
    cases left with
    | _ =>
      cases right with
      | _ => simp [slashBetween]
  have long : ∀ w ∈ importWords, 4 ≤ w.length := by decide
  have noImport : importWords.any (fun w => w.isPrefixOf (slashBetween left right)) = false := by
    rw [List.any_eq_false]
    intro w member isImport
    have fits := (List.isPrefixOf_iff_prefix.mp isImport).length_le
    exact absurd ((long w member).trans (fits.trans short)) (by decide)
  rw [isIdle, visible, noImport, Bool.or_false]
  cases left with
  | _ => rfl

theorem codeLines_slashBetween (isLeft : Neighbour left) (isRight : Neighbour right) :
    ∃ line, codeLines [slashBetween left right] = [⟨1, line, slashBetween left right⟩] := by
  have stripped := CodeMode.strip_of_forall (isCode_slashBetween isLeft isRight)
  rw [codeLines, codeLinesFrom, stripped]
  dsimp only
  rw [not_isIdle_slashBetween isLeft]
  exact ⟨_, rfl⟩

theorem slash_not_mem (isNeighbour : Neighbour left) : '/' ∉ left.toList := by
  intro member
  exact (isNeighbour '/' (Option.mem_toList.mp member)).2.2 rfl

theorem loneSlash_slashBetween (isLeft : Neighbour left) (isRight : Neighbour right) :
    LoneSlash (slashBetween left right) left.toList right.toList := by
  refine ⟨rfl, fun isSlash => ?_, fun isSlash => ?_⟩
  · exact slash_not_mem isLeft (List.mem_of_getLast? isSlash)
  · exact slash_not_mem isRight (List.mem_of_head? isSlash)

theorem parts_eq {before after before' after' : List Char} (none : '/' ∉ before) (none' : '/' ∉ after)
    (split : before ++ '/' :: after = before' ++ '/' :: after') : before' = before ∧ after' = after := by
  obtain ⟨more, rfl, rest⟩ | ⟨more, rfl, rest⟩ := List.append_eq_append_iff.mp split
  · cases more with
    | nil =>
      obtain ⟨-, rfl⟩ := List.cons.inj rest
      exact ⟨List.append_nil _, rfl⟩
    | cons _ more =>
      obtain ⟨rfl, rfl⟩ := List.cons.inj rest
      exact absurd (List.mem_append_right _ List.mem_cons_self) none'
  · cases more with
    | nil =>
      obtain ⟨-, rfl⟩ := List.cons.inj rest
      exact ⟨(List.append_nil _).symm, rfl⟩
    | cons _ more =>
      obtain ⟨rfl, rfl⟩ := List.cons.inj rest
      exact absurd (List.mem_append_right _ List.mem_cons_self) none

theorem beside_slashBetween (isLeft : Neighbour left) (isRight : Neighbour right) :
    Beside left right (slashBetween left right) := by
  intro before after slash
  obtain ⟨rfl, rfl⟩ := parts_eq (slash_not_mem isLeft) (slash_not_mem isRight) slash.split
  constructor
  · cases left with
    | none => rfl
    | some c => simp [visibleBefore, (isLeft c rfl).2.1]
  · cases right with
    | none => rfl
    | some c => simp [visibleAfter, (isRight c rfl).2.1]

end Between

/-- A line of code is reported exactly if it divides one operand by another, so that the lines that
divide are the reported ones exactly if all of them do.  Among the lines whose lone slashes have given
characters beside them this is so exactly if the one character may end an operand and the other may
begin one. -/
theorem divisions_found_iff (lines : List (List Char)) (left right : Option Char) :
    (∀ l ∈ codeLines lines, Reported lines l ↔ HasQuotient l.code) ∧
    ((∀ l ∈ codeLines lines, Reported lines l ↔ HasDivision l.code) ↔
      ∀ l ∈ codeLines lines, HasDivision l.code → HasQuotient l.code) ∧
    (Neighbour left → Neighbour right →
      ((∀ lines, ∀ l ∈ codeLines lines, Beside left right l.code →
          (Reported lines l ↔ HasDivision l.code)) ↔
        left.any endsOperand = true ∧ right.any beginsOperand = true)) := by
  refine ⟨fun _ => reported_iff, ⟨fun agree l member division => ?_, fun quotients l member => ?_⟩,
    fun isLeft isRight => ⟨fun agree => ?_, ?_⟩⟩
  · exact (reported_iff member).mp ((agree l member).mpr division)
  · rw [reported_iff member]
    exact ⟨HasQuotient.hasDivision, quotients l member⟩
  · obtain ⟨line, isLine⟩ := codeLines_slashBetween isLeft isRight
    have member : ⟨1, line, slashBetween left right⟩ ∈ codeLines [slashBetween left right] := by
      simp [isLine]
    have beside := beside_slashBetween isLeft isRight
    obtain ⟨before, after, slash, ends, begins⟩ := (reported_iff member).mp
      ((agree _ _ member beside).mpr ⟨_, _, loneSlash_slashBetween isLeft isRight⟩)
    obtain ⟨rfl, rfl⟩ := beside before after slash
    exact ⟨ends, begins⟩
  · rintro ⟨ends, begins⟩ lines l member beside
    rw [reported_iff member]
    refine ⟨HasQuotient.hasDivision, fun ⟨before, after, slash⟩ => ?_⟩
    obtain ⟨rfl, rfl⟩ := beside before after slash
    exact ⟨before, after, slash, ends, begins⟩

def subscriptLine : List Char :=
  "x = a[0] / 2".toList

/-- The division of a subscript is passed over. -/
theorem subscript_not_reported : codeLines [subscriptLine] = [⟨1, subscriptLine, subscriptLine⟩] ∧
    HasDivision subscriptLine ∧ ¬ Reported [subscriptLine] ⟨1, subscriptLine, subscriptLine⟩ := by
  refine ⟨by decide, ⟨"x = a[0] ".toList, " 2".toList, by decide, by decide, by decide⟩, ?_⟩
  unfold Reported
  decide

end Audit

end PegPool
