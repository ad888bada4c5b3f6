import Mathlib.Order.Nat
import PegPool.Proofs.Audit.Lines

/-!
# Literals and comments

The text of a line is divided into code, literals and comments (`Strips`): a literal is opened by a quote
or by three of them, and is closed by the same mark.  Which marks close a literal is a matter of how it
is read.  With escapes, a mark behind a backslash that is not escaped itself belongs to the literal
(`Reading.escaping`); the audit takes the first mark (`Reading.firstMark`).

Under either reading a list of lines is stripped in exactly one way (`exists_stripsAll_iff`), and what
the audit strips is the second (`stripsAll_firstMark_iff`).
-/

namespace PegPool

namespace Audit

/-! ## Readings -/

def IsQuote (q : Char) : Prop :=
  q = '"' ∨ q = '\''

namespace IsQuote

variable {q : Char}

theorem not_isCode (isQuote : IsQuote q) : ¬ IsCode q := by
  obtain rfl | rfl := isQuote
  · decide
  · decide

theorem ne_hash (isQuote : IsQuote q) : q ≠ '#' := by
  obtain rfl | rfl := isQuote
  · decide
  · decide

theorem ne_backslash (isQuote : IsQuote q) : q ≠ '\\' := by
  obtain rfl | rfl := isQuote
  · decide
  · decide

end IsQuote

theorem hash_or_isQuote {c : Char} (notCode : ¬ IsCode c) : c = '#' ∨ IsQuote c := by
  rw [IsCode] at notCode
  rw [IsQuote]
  grind

/-- The text ends with a backslash that is not escaped itself. -/
def Escapes (text : List Char) : Prop :=
  (text.reverse.takeWhile (· == '\\')).length % 2 = 1

instance (text : List Char) : Decidable (Escapes text) :=
  inferInstanceAs (Decidable (_ = _))

/-- Which marks belong to a literal and which close it, told by the text of the literal before them. -/
structure Reading where
  passes : List Char → Prop
  ends : List Char → Prop

namespace Reading

/-- Any mark closes a literal. -/
def firstMark : Reading := ⟨fun _ => False, fun _ => True⟩

/-- A mark closes a literal unless it is escaped. -/
def escaping : Reading := ⟨Escapes, fun text => ¬ Escapes text⟩

/-- A literal has no mark but the one that closes it, and that one is not escaped. -/
def plain : Reading := ⟨fun _ => False, fun text => ¬ Escapes text⟩

/-- The mark behind the text is the first one that closes the literal. -/
structure ClosedBy (R : Reading) (mark text rest : List Char) : Prop where
  ends : R.ends text
  earlier : ∀ before after, text ++ mark ++ rest = before ++ mark ++ after →
    before.length < text.length → R.passes before

def Unclosed (R : Reading) (mark text : List Char) : Prop :=
  ∀ before after, text = before ++ mark ++ after → R.passes before

/-- A mark does not both belong to a literal and close it. -/
def Exclusive (R : Reading) : Prop :=
  ∀ text, R.passes text → ¬ R.ends text

def Total (R : Reading) : Prop :=
  ∀ text, R.passes text ∨ R.ends text

theorem escaping_exclusive : escaping.Exclusive :=
  fun _ escapes ends => ends escapes

theorem escaping_total : escaping.Total :=
  fun text => Decidable.em (Escapes text)

theorem escaping_not_passes_nil : ¬ escaping.passes [] :=
  show ¬ Escapes [] by decide

theorem firstMark_total : firstMark.Total :=
  fun _ => .inr trivial

variable {R S : Reading} {mark text rest text' rest' : List Char}

theorem ClosedBy.mono (passes : ∀ t, R.passes t → S.passes t) (ends : ∀ t, R.ends t → S.ends t)
    (closed : R.ClosedBy mark text rest) : S.ClosedBy mark text rest :=
  ⟨ends text closed.ends, fun before after split shorter =>
    passes before (closed.earlier before after split shorter)⟩

theorem Unclosed.mono (passes : ∀ t, R.passes t → S.passes t) (unclosed : R.Unclosed mark text) :
    S.Unclosed mark text :=
  fun before after split => passes before (unclosed before after split)

theorem ClosedBy.not_shorter (exclusive : R.Exclusive) (closed : R.ClosedBy mark text rest)
    (closed' : R.ClosedBy mark text' rest') (same : text ++ mark ++ rest = text' ++ mark ++ rest') :
    ¬ text.length < text'.length :=
  fun shorter => exclusive text (closed'.earlier text rest same.symm shorter) closed.ends

theorem ClosedBy.unique (exclusive : R.Exclusive) (closed : R.ClosedBy mark text rest)
    (closed' : R.ClosedBy mark text' rest') (same : text ++ mark ++ rest = text' ++ mark ++ rest') :
    text = text' ∧ rest = rest' := by
  have sameLength : text.length = text'.length := by
    have notShorter := closed.not_shorter exclusive closed' same
    have notLonger := closed'.not_shorter exclusive closed same.symm
    omega
  rw [List.append_assoc, List.append_assoc] at same
  obtain ⟨sameText, behind⟩ := List.append_inj same sameLength
  exact ⟨sameText, List.append_cancel_left behind⟩

theorem ClosedBy.not_unclosed (exclusive : R.Exclusive) (closed : R.ClosedBy mark text rest) :
    ¬ R.Unclosed mark (text ++ mark ++ rest) :=
  fun unclosed => exclusive text (unclosed text rest rfl) closed.ends

theorem ClosedBy.not_prefix {c : Char} (closed : firstMark.ClosedBy mark (c :: text) rest) :
    ¬ mark <+: c :: (text ++ mark ++ rest) := by
  rintro ⟨after, split⟩
  exact closed.earlier [] after split.symm (Nat.succ_pos _)

theorem ClosedBy.tail {c : Char} (closed : firstMark.ClosedBy mark (c :: text) rest) :
    firstMark.ClosedBy mark text rest :=
  ⟨trivial, fun before after split shorter =>
    closed.earlier (c :: before) after (congrArg (c :: ·) split) (Nat.succ_lt_succ shorter)⟩

theorem Unclosed.not_prefix (unclosed : firstMark.Unclosed mark text) : ¬ mark <+: text := by
  rintro ⟨after, split⟩
  exact unclosed [] after split.symm

theorem Unclosed.tail {c : Char} (unclosed : firstMark.Unclosed mark (c :: text)) :
    firstMark.Unclosed mark text :=
  fun before after split => unclosed (c :: before) after (congrArg (c :: ·) split)

theorem Total.closed_or_unclosed (total : R.Total) (mark inside : List Char) :
    (∃ text rest, inside = text ++ mark ++ rest ∧ R.ClosedBy mark text rest) ∨
      R.Unclosed mark inside := by
  classical
  -- of all marks that end the literal, the one behind the shortest text closes it
  by_cases closes : ∃ n text rest, text.length = n ∧ inside = text ++ mark ++ rest ∧ R.ends text
  · obtain ⟨text, rest, isFirst, split, ends⟩ := Nat.find_spec closes
    refine .inl ⟨text, rest, split, ends, fun before after split' shorter => ?_⟩
    refine (total before).resolve_right fun ends' => ?_
    exact Nat.find_min closes (isFirst ▸ shorter) ⟨before, after, rfl, split.trans split', ends'⟩
  · refine .inr fun before after split => (total before).resolve_right fun ends => ?_
    exact closes ⟨_, before, after, rfl, split, ends⟩

end Reading

/-! ## What is stripped of a line -/

def spaces (n : Nat) : List Char :=
  List.replicate n ' '

/-- A line and the code in it.  Before the line, a literal that is opened by three of the quotes may be
open, and likewise behind it. -/
inductive Strips (R : Reading) : Option Char → List Char → List Char → Option Char → Prop where
  | nil : Strips R none [] [] none
  | comment {text : List Char} : Strips R none ('#' :: text) [] none
  | code {c : Char} {line out : List Char} {next : Option Char} (isCode : IsCode c)
      (behind : Strips R none line out next) : Strips R none (c :: line) (c :: out) next
  | closed {q : Char} {inside text line out : List Char} {next : Option Char} (isQuote : IsQuote q)
      (single : ¬ [q, q] <+: inside) (split : inside = text ++ [q] ++ line)
      (closed : R.ClosedBy [q] text line) (behind : Strips R none line out next) :
      Strips R none (q :: inside) (spaces (text.length + 2) ++ out) next
  | unclosed {q : Char} {inside : List Char} (isQuote : IsQuote q) (single : ¬ [q, q] <+: inside)
      (unclosed : R.Unclosed [q] inside) :
      Strips R none (q :: inside) (spaces (inside.length + 1)) none
  | opened {q : Char} {inside out : List Char} {next : Option Char} (isQuote : IsQuote q)
      (behind : Strips R (some q) inside out next) :
      Strips R none (q :: q :: q :: inside) (spaces 3 ++ out) next
  | longClosed {q : Char} {inside text line out : List Char} {next : Option Char}
      (split : inside = text ++ [q, q, q] ++ line) (closed : R.ClosedBy [q, q, q] text line)
      (behind : Strips R none line out next) :
      Strips R (some q) inside (spaces (text.length + 3) ++ out) next
  | longUnclosed {q : Char} {inside : List Char} (unclosed : R.Unclosed [q, q, q] inside) :
      Strips R (some q) inside (spaces inside.length) (some q)

namespace Strips

variable {R S : Reading} {o next next' : Option Char} {line out out' : List Char}

theorem mono (passes : ∀ t, R.passes t → S.passes t) (ends : ∀ t, R.ends t → S.ends t)
    (strips : Strips R o line out next) : Strips S o line out next := by
  induction strips with
  | nil => exact .nil
  | comment => exact .comment
  | code isCode _ ih => exact .code isCode ih
  | closed isQuote single split closed _ ih =>
    exact .closed isQuote single split (closed.mono passes ends) ih
  | unclosed isQuote single unclosed => exact .unclosed isQuote single (unclosed.mono passes)
  | opened isQuote _ ih => exact .opened isQuote ih
  | longClosed split closed _ ih => exact .longClosed split (closed.mono passes ends) ih
  | longUnclosed unclosed => exact .longUnclosed (unclosed.mono passes)

theorem unique (exclusive : R.Exclusive) (strips : Strips R o line out next)
    (strips' : Strips R o line out' next') : out = out' ∧ next = next' := by
  induction strips generalizing out' next' with
  | nil =>
    cases strips'
    exact ⟨rfl, rfl⟩
  | comment =>
    cases strips' with
    | comment => exact ⟨rfl, rfl⟩
    | code isCode => exact absurd rfl isCode.2.2
    | closed isQuote => exact absurd rfl isQuote.ne_hash
    | unclosed isQuote => exact absurd rfl isQuote.ne_hash
    | opened isQuote => exact absurd rfl isQuote.ne_hash
  | code isCode _ ih =>
    cases strips' with
    | comment => exact absurd rfl isCode.2.2
    | code _ behind =>
      obtain ⟨rfl, rfl⟩ := ih behind
      exact ⟨rfl, rfl⟩
    | closed isQuote => exact absurd isCode isQuote.not_isCode
    | unclosed isQuote => exact absurd isCode isQuote.not_isCode
    | opened isQuote => exact absurd isCode isQuote.not_isCode
  | closed isQuote single split closed _ ih =>
    cases strips' with
    | comment => exact absurd rfl isQuote.ne_hash
    | code isCode => exact absurd isCode isQuote.not_isCode
    | closed _ _ split' closed' behind =>
      obtain ⟨rfl, rfl⟩ := closed.unique exclusive closed' (split.symm.trans split')
      obtain ⟨rfl, rfl⟩ := ih behind
      exact ⟨rfl, rfl⟩
    | unclosed _ _ unclosed => exact absurd (split ▸ unclosed) (closed.not_unclosed exclusive)
    | opened => exact absurd (List.prefix_append _ _) single
  | unclosed isQuote single unclosed =>
    cases strips' with
    | comment => exact absurd rfl isQuote.ne_hash
    | code isCode => exact absurd isCode isQuote.not_isCode
    | closed _ _ split closed => exact absurd (split ▸ unclosed) (closed.not_unclosed exclusive)
    | unclosed => exact ⟨rfl, rfl⟩
    | opened => exact absurd (List.prefix_append _ _) single
  | opened isQuote _ ih =>
    cases strips' with
    | comment => exact absurd rfl isQuote.ne_hash
    | code isCode => exact absurd isCode isQuote.not_isCode
    | closed _ single => exact absurd (List.prefix_append _ _) single
    | unclosed _ single => exact absurd (List.prefix_append _ _) single
    | opened _ behind =>
      obtain ⟨rfl, rfl⟩ := ih behind
      exact ⟨rfl, rfl⟩
  | longClosed split closed _ ih =>
    cases strips' with
    | longClosed split' closed' behind =>
      obtain ⟨rfl, rfl⟩ := closed.unique exclusive closed' (split.symm.trans split')
      obtain ⟨rfl, rfl⟩ := ih behind
      exact ⟨rfl, rfl⟩
    | longUnclosed unclosed => exact absurd (split ▸ unclosed) (closed.not_unclosed exclusive)
  | longUnclosed unclosed =>
    cases strips' with
    | longClosed split closed => exact absurd (split ▸ unclosed) (closed.not_unclosed exclusive)
    | longUnclosed => exact ⟨rfl, rfl⟩

theorem exists_strips (total : R.Total) (o : Option Char) (line : List Char) :
    ∃ out next, Strips R o line out next := by
  -- a literal takes several characters at once, so the induction is on the length
  induction size : line.length using Nat.strong_induction_on generalizing o line with
  | h n ih =>
    subst size
    match o, line with
    | none, [] => exact ⟨_, _, .nil⟩
    | none, c :: inside =>
      by_cases isCode : IsCode c
      · obtain ⟨out, next, behind⟩ := ih _ (Nat.lt_succ_self _) none inside rfl
        exact ⟨_, _, .code isCode behind⟩
      · obtain rfl | isQuote := hash_or_isQuote isCode
        · exact ⟨_, _, .comment⟩
        · by_cases single : [c, c] <+: inside
          · obtain ⟨rest, rfl⟩ := single
            obtain ⟨out, next, behind⟩ := ih _ (by simp; omega) (some c) rest rfl
            exact ⟨_, _, .opened isQuote behind⟩
          · obtain ⟨text, rest, rfl, closed⟩ | unclosed := total.closed_or_unclosed [c] inside
            · obtain ⟨out, next, behind⟩ := ih _ (by simp; omega) none rest rfl
              exact ⟨_, _, .closed isQuote single rfl closed behind⟩
            · exact ⟨_, _, .unclosed isQuote single unclosed⟩
    | some q, inside =>
      obtain ⟨text, rest, rfl, closed⟩ | unclosed := total.closed_or_unclosed [q, q, q] inside
      · obtain ⟨out, next, behind⟩ := ih _ (by simp; omega) none rest rfl
        exact ⟨_, _, .longClosed rfl closed behind⟩
      · exact ⟨_, _, .longUnclosed unclosed⟩

end Strips

/-! ## What the audit strips -/

namespace CodeMode

variable {q : Char} {text rest inside : List Char}

/-- The mode in which a line begins that a literal of three of the quotes may be open before. -/
def ofOpen : Option Char → CodeMode
  | none => code
  | some q => long q

def behindSpaces (n : Nat) (stripped : List Char × CodeMode) : List Char × CodeMode :=
  (spaces n ++ stripped.1, stripped.2)

theorem strip_opened (isQuote : IsQuote q) (rest : List Char) :
    strip .code (q :: q :: q :: rest) = behindSpaces 3 (strip (.long q) rest) := by
  obtain rfl | rfl := isQuote
  · rfl
  · rfl

theorem strip_quote (isQuote : IsQuote q) (single : ¬ [q, q] <+: rest) :
    strip .code (q :: rest) = behindSpaces 1 (strip (.short q) rest) := by
  have notTriple : ∀ rest', rest ≠ q :: q :: rest' := by
    rintro rest' rfl
    exact single (List.prefix_append [q, q] rest')
  obtain rfl | rfl := isQuote
  · rw [strip, if_neg (by decide), if_pos (by decide)]
    · rfl
    · exact fun rest' _ => notTriple rest'
    · exact fun _ h => absurd h (by decide)
  · rw [strip, if_neg (by decide), if_pos (by decide)]
    · rfl
    · exact fun _ h => absurd h (by decide)
    · exact fun rest' _ => notTriple rest'

theorem strip_hash (rest : List Char) : strip .code ('#' :: rest) = ([], .code) := rfl

theorem strip_short_quote (q : Char) (rest : List Char) :
    strip (.short q) (q :: rest) = behindSpaces 1 (strip .code rest) := by
  rw [strip, if_pos rfl]
  rfl

theorem strip_short_cons {c : Char} (other : c ≠ q) (rest : List Char) :
    strip (.short q) (c :: rest) = behindSpaces 1 (strip (.short q) rest) := by
  rw [strip, if_neg other]
  rfl

theorem strip_long_mark (isQuote : IsQuote q) (rest : List Char) :
    strip (.long q) (q :: q :: q :: rest) = behindSpaces 3 (strip .code rest) := by
  obtain rfl | rfl := isQuote
  · rfl
  · rfl

theorem strip_long_cons {c : Char} (noMark : ¬ [q, q, q] <+: c :: rest) :
    strip (.long q) (c :: rest) = behindSpaces 1 (strip (.long q) rest) := by
  have notTriple : ∀ rest', c :: rest ≠ q :: q :: q :: rest' := by
    intro rest' isMark
    exact noMark (isMark ▸ List.prefix_append [q, q, q] rest')
  rw [strip]
  · rfl
  · rintro rest' rfl rfl rfl
    exact notTriple rest' rfl
  · rintro rest' rfl rfl rfl
    exact notTriple rest' rfl

theorem behindSpaces_behindSpaces (m n : Nat) (stripped : List Char × CodeMode) :
    behindSpaces m (behindSpaces n stripped) = behindSpaces (m + n) stripped := by
  unfold behindSpaces spaces
  rw [← List.replicate_append_replicate, List.append_assoc]

theorem strip_short_closed (closed : Reading.firstMark.ClosedBy [q] text rest) :
    strip (.short q) (text ++ [q] ++ rest) = behindSpaces (text.length + 1) (strip .code rest) := by
  induction text with
  | nil => exact strip_short_quote q rest
  | cons c text ih =>
    have other : c ≠ q := by
      rintro rfl
      exact closed.not_prefix ⟨_, rfl⟩
    rw [List.cons_append, List.cons_append, strip_short_cons other, ih closed.tail,
      behindSpaces_behindSpaces, Nat.add_comm 1]
    rfl

theorem strip_short_unclosed (unclosed : Reading.firstMark.Unclosed [q] inside) :
    strip (.short q) inside = (spaces inside.length, .code) := by
  induction inside with
  | nil => rfl
  | cons c inside ih =>
    have other : c ≠ q := by
      rintro rfl
      exact unclosed.not_prefix ⟨_, rfl⟩
    rw [strip_short_cons other, ih unclosed.tail]
    rfl

theorem strip_long_closed (isQuote : IsQuote q)
    (closed : Reading.firstMark.ClosedBy [q, q, q] text rest) :
    strip (.long q) (text ++ [q, q, q] ++ rest) = behindSpaces (text.length + 3) (strip .code rest) := by
  induction text with
  | nil => exact strip_long_mark isQuote rest
  | cons c text ih =>
    rw [List.cons_append, List.cons_append, strip_long_cons closed.not_prefix, ih closed.tail,
      behindSpaces_behindSpaces, Nat.add_comm 1]
    rfl

theorem strip_long_unclosed (unclosed : Reading.firstMark.Unclosed [q, q, q] inside) :
    strip (.long q) inside = (spaces inside.length, .long q) := by
  induction inside with
  | nil => rfl
  | cons c inside ih =>
    rw [strip_long_cons unclosed.not_prefix, ih unclosed.tail]
    rfl

/-- What a line is stripped to when the first mark closes a literal is what the audit strips it to. -/
theorem strip_eq {o next : Option Char} {line out : List Char}
    (strips : Strips .firstMark o line out next) (openQuote : ∀ q, o = some q → IsQuote q) :
    (ofOpen o).strip line = (out, ofOpen next) := by
  induction strips with
  | nil => rfl
  | comment => exact strip_hash _
  | code isCode _ ih =>
    have behind : strip .code _ = _ := ih nofun
    rw [ofOpen, strip_cons isCode, behind]
  | @closed q inside text _ _ _ isQuote single split closed _ ih =>
    have behind : strip .code _ = _ := ih nofun
    rw [ofOpen, strip_quote isQuote single, split, strip_short_closed closed,
      behindSpaces_behindSpaces, behind, Nat.add_comm 1]
    rfl
  | @unclosed q inside isQuote single unclosed =>
    rw [ofOpen, strip_quote isQuote single, strip_short_unclosed unclosed]
    rfl
  | @opened q _ _ _ isQuote _ ih =>
    have behind : strip (.long q) _ = _ := ih fun _ same => Option.some.inj same ▸ isQuote
    rw [ofOpen, strip_opened isQuote, behind]
    rfl
  | longClosed split closed _ ih =>
    have behind : strip .code _ = _ := ih nofun
    rw [ofOpen, split, strip_long_closed (openQuote _ rfl) closed, behind]
    rfl
  | longUnclosed unclosed => exact strip_long_unclosed unclosed

end CodeMode

/-! ## Lists of lines -/

def stripLines (mode : CodeMode) : List (List Char) → List (List Char)
  | [] => []
  | line :: lines => (mode.strip line).1 :: stripLines (mode.strip line).2 lines

theorem exists_of_mem_codeLinesFrom {number : Nat} {mode : CodeMode} {lines : List (List Char)}
    {l : CodeLine} (member : l ∈ codeLinesFrom number mode lines) :
    ∃ i line, lines[i]? = some line ∧ l.number = number + i ∧
      l.line = Text.dropEnd Text.isBlank line ∧ (stripLines mode lines)[i]? = some l.code := by
  induction lines generalizing number mode with
  | nil => cases member
  | cons line lines ih =>
    have later (member : l ∈ codeLinesFrom (number + 1) (mode.strip line).2 lines) :
        ∃ i line', (line :: lines)[i]? = some line' ∧ l.number = number + i ∧
          l.line = Text.dropEnd Text.isBlank line' ∧
          (stripLines mode (line :: lines))[i]? = some l.code := by
      obtain ⟨i, line', isLine, isNumber, isText, isCode⟩ := ih member
      exact ⟨i + 1, line', isLine, by omega, isText, isCode⟩
    obtain passed | kept := codeLinesFrom_cons number mode line lines
    · exact later (passed ▸ member)
    · rw [kept] at member
      cases member with
      | head => exact ⟨0, line, rfl, rfl, rfl, rfl⟩
      | tail _ member => exact later member

theorem exists_of_mem_codeLines {lines : List (List Char)} {l : CodeLine}
    (member : l ∈ codeLines lines) :
    ∃ i line, lines[i]? = some line ∧ l.number = i + 1 ∧ l.line = Text.dropEnd Text.isBlank line ∧
      (stripLines .code lines)[i]? = some l.code := by
  obtain ⟨i, line, isLine, isNumber, isText, isCode⟩ := exists_of_mem_codeLinesFrom member
  exact ⟨i, line, isLine, by omega, isText, isCode⟩

/-- Lines and the code in them, where a literal that is open behind one line is open before the next. -/
inductive StripsAll (R : Reading) : Option Char → List (List Char) → List (List Char) → Prop where
  | nil {o : Option Char} : StripsAll R o [] []
  | cons {o next : Option Char} {line out : List Char} {lines outs : List (List Char)}
      (first : Strips R o line out next) (others : StripsAll R next lines outs) :
      StripsAll R o (line :: lines) (out :: outs)

namespace StripsAll

variable {R S : Reading} {o : Option Char} {line : List Char} {lines outs outs' : List (List Char)}

theorem mono (passes : ∀ t, R.passes t → S.passes t) (ends : ∀ t, R.ends t → S.ends t)
    (strips : StripsAll R o lines outs) : StripsAll S o lines outs := by
  induction strips with
  | nil => exact .nil
  | cons first _ ih => exact .cons (first.mono passes ends) ih

theorem unique (exclusive : R.Exclusive) (strips : StripsAll R o lines outs)
    (strips' : StripsAll R o lines outs') : outs = outs' := by
  induction strips generalizing outs' with
  | nil =>
    cases strips'
    rfl
  | cons first _ ih =>
    cases strips' with
    | cons first' others' =>
      obtain ⟨rfl, rfl⟩ := first.unique exclusive first'
      rw [ih others']

theorem exists_stripsAll (total : R.Total) (o : Option Char) (lines : List (List Char)) :
    ∃ outs, StripsAll R o lines outs := by
  induction lines generalizing o with
  | nil => exact ⟨_, .nil⟩
  | cons line lines ih =>
    obtain ⟨out, next, first⟩ := Strips.exists_strips total o line
    obtain ⟨outs, others⟩ := ih next
    exact ⟨_, .cons first others⟩

end StripsAll

/-- With escapes, lines are stripped in exactly one way. -/
theorem exists_stripsAll_iff (lines : List (List Char)) :
    ∃ outs, ∀ outs', StripsAll .escaping none lines outs' ↔ outs' = outs := by
  obtain ⟨outs, strips⟩ := StripsAll.exists_stripsAll Reading.escaping_total none lines
  refine ⟨outs, fun outs' => ⟨fun strips' => ?_, ?_⟩⟩
  · exact strips'.unique Reading.escaping_exclusive strips
  · rintro rfl
    exact strips

theorem Strips.openQuote {R : Reading} {o next : Option Char} {line out : List Char}
    (strips : Strips R o line out next) (openQuote : ∀ q, o = some q → IsQuote q) :
    ∀ q, next = some q → IsQuote q := by
  induction strips with
  | nil | comment | unclosed => exact nofun
  | code _ _ ih | closed _ _ _ _ _ ih | longClosed _ _ _ ih => exact ih nofun
  | opened isQuote _ ih => exact ih fun _ same => Option.some.inj same ▸ isQuote
  | longUnclosed => exact openQuote

/-- The audit strips lines by their first marks. -/
theorem stripLines_eq {o : Option Char} {lines outs : List (List Char)}
    (strips : StripsAll .firstMark o lines outs) (openQuote : ∀ q, o = some q → IsQuote q) :
    stripLines (.ofOpen o) lines = outs := by
  induction strips with
  | nil => rfl
  | cons first _ ih =>
    rw [stripLines, CodeMode.strip_eq first openQuote, ih (first.openQuote openQuote)]

theorem stripsAll_firstMark_iff {lines outs : List (List Char)} :
    StripsAll .firstMark none lines outs ↔ outs = stripLines .code lines := by
  constructor
  · intro strips
    exact (stripLines_eq strips nofun).symm
  · rintro rfl
    obtain ⟨outs, strips⟩ := StripsAll.exists_stripsAll Reading.firstMark_total none lines
    rw [show CodeMode.code = .ofOpen none from rfl, stripLines_eq strips nofun]
    exact strips

end Audit

end PegPool
