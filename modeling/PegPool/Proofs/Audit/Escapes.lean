import PegPool.Proofs.Audit.Literals

/-!
# Escaped quotes

As long as the first mark behind the opening of each literal is not escaped, the audit strips lines as
they should be (`strips_of_plain`).  Behind an escaped quote it is outside of the literal too early, and
never comes back to the right side: the rest of the literal holds no quote that is not escaped, and the
backslash before an escaped one would be kept (`strip_ne`).  So a literal with an escaped quote is never
stripped as a whole, and the code behind it is hidden (`literals_stripped_iff`).
-/

namespace PegPool

namespace Audit

theorem strips_of_plain {lines outs : List (List Char)} (strips : StripsAll .plain none lines outs) :
    StripsAll .escaping none lines (stripLines .code lines) := by
  have firstMark : StripsAll .firstMark none lines outs :=
    strips.mono (R := .plain) (S := .firstMark) (fun _ passes => passes) fun _ _ => trivial
  rw [← stripsAll_firstMark_iff.mp firstMark]
  exact strips.mono (R := .plain) (S := .escaping) (fun _ => False.elim) fun _ ends => ends

/-! ## Behind a literal -/

section Behind

variable {R : Reading} {q : Char} {before text rest : List Char}

theorem Strips.append_code {next : Option Char} {line out : List Char}
    (isCode : ∀ c ∈ before, IsCode c) (strips : Strips R none line out next) :
    Strips R none (before ++ line) (before ++ out) next := by
  induction before with
  | nil => exact strips
  | cons c before ih =>
    obtain ⟨first, others⟩ := List.forall_mem_cons.mp isCode
    exact .code first (ih others)

theorem Strips.of_isCode (isCode : ∀ c ∈ rest, IsCode c) : Strips R none rest rest none := by
  have strips : Strips R none (rest ++ []) (rest ++ []) none := append_code isCode .nil
  rw [List.append_nil] at strips
  exact strips

theorem unclosed_of_isCode (isQuote : IsQuote q) (isCode : ∀ c ∈ rest, IsCode c)
    (mark : List Char) : R.Unclosed (q :: mark) rest := by
  rintro before after rfl
  exact absurd (isCode q (by simp)) isQuote.not_isCode

theorem closedBy_of_not_mem (notMem : q ∉ text) (ends : R.ends text) : R.ClosedBy [q] text rest := by
  refine ⟨ends, fun before after split shorter => absurd ?_ notMem⟩
  have here := congrArg (fun cs : List Char => cs[before.length]?) split
  rw [List.append_assoc, List.append_assoc] at here
  rw [List.getElem?_append_left shorter, List.getElem?_append_right (Nat.le_refl _), Nat.sub_self] at here
  exact List.mem_of_getElem? here

theorem not_double (closed : R.ClosedBy [q] text rest) (notPasses : ¬ R.passes [])
    (isQuote : IsQuote q) (isCode : ∀ c ∈ rest, IsCode c) : ¬ [q, q] <+: text ++ [q] ++ rest := by
  rintro ⟨after, split⟩
  cases text with
  | nil =>
    have isRest : q :: after = rest := (List.cons.inj split).2
    exact notPasses (unclosed_of_isCode isQuote isCode [] [] after isRest.symm)
  | cons c text =>
    exact notPasses (closed.earlier [] (q :: after) split.symm (Nat.succ_pos _))

/-! ## Outside of the literal too early -/

/-- In a text behind the character `prev`, the quote only comes behind backslashes. -/
def Guarded (q : Char) : Char → List Char → Prop
  | _, [] => True
  | prev, c :: text => (c = q → prev = '\\') ∧ Guarded q c text

theorem guarded_of_getLast? {prev : Char}
    (escaped : ∀ front back, text = front ++ q :: back → (prev :: front).getLast? = some '\\') :
    Guarded q prev text := by
  induction text generalizing prev with
  | nil => exact trivial
  | cons c text ih =>
    refine ⟨?_, ih fun front back split => ?_⟩
    · rintro rfl
      exact Option.some.inj (escaped [] text rfl)
    · have last := escaped (c :: front) back (congrArg (c :: ·) split)
      rw [List.getLast?_cons_cons] at last
      exact last

/-- The next character is not in a literal that the quote opened, and not behind a backslash of code. -/
inductive Elsewhere (q : Char) : CodeMode → Char → Prop where
  | code {prev : Char} (noBackslash : prev ≠ '\\') : Elsewhere q .code prev
  | short {q' prev : Char} (isQuote : IsQuote q') (other : q' ≠ q) : Elsewhere q (.short q') prev
  | long {q' prev : Char} (isQuote : IsQuote q') (other : q' ≠ q) : Elsewhere q (.long q') prev

theorem spaces_ne (visible : ∃ c ∈ rest, c ≠ ' ') : spaces rest.length ≠ rest := by
  intro blank
  obtain ⟨c, member, notSpace⟩ := visible
  rw [← blank] at member
  exact notSpace (List.eq_of_mem_replicate member)

theorem behindSpaces_eq_iff {m n : Nat} {stripped : List Char × CodeMode} :
    (CodeMode.behindSpaces m stripped).1 = spaces (m + n) ++ rest ↔ stripped.1 = spaces n ++ rest := by
  unfold CodeMode.behindSpaces spaces
  rw [← List.replicate_append_replicate, List.append_assoc, List.append_cancel_left_eq]

theorem exists_of_double_prefix {q' : Char} (other : q' ≠ q) (double : [q', q'] <+: text ++ q :: rest) :
    ∃ text', text = q' :: q' :: text' := by
  obtain ⟨after, split⟩ := double
  match text with
  | [] => exact absurd (List.cons.inj split).1 other
  | [c] =>
    obtain ⟨-, rest⟩ := List.cons.inj split
    exact absurd (List.cons.inj rest).1 other
  | c :: d :: text =>
    obtain ⟨rfl, rest⟩ := List.cons.inj split
    obtain ⟨rfl, -⟩ := List.cons.inj rest
    exact ⟨text, rfl⟩

/-- What is stripped of the text and the quote behind it is what is stripped of an end of the text, in
which the quote is guarded as well, behind spaces for the rest of the text. -/
inductive Advances (q : Char) (rest text : List Char) : List Char × CodeMode → Prop where
  | intro {n : Nat} {text' : List Char} {mode : CodeMode} {prev : Char}
      (length : text.length = (n + 1) + text'.length) (elsewhere : Elsewhere q mode prev)
      (guarded : Guarded q prev text') :
      Advances q rest text (CodeMode.behindSpaces (n + 1) (mode.strip (text' ++ q :: rest)))

/-- The first characters of a text in which the quote is guarded are blanked out, or are kept and seen. -/
theorem advances_or_shows (rest : List Char) {mode : CodeMode} {c prev : Char}
    (elsewhere : Elsewhere q mode prev) (guarded : Guarded q prev (c :: text)) :
    Advances q rest (c :: text) (mode.strip (c :: (text ++ q :: rest))) ∨
      (mode.strip (c :: (text ++ q :: rest))).1.head? ≠ some ' ' := by
  have one : (c :: text).length = (0 + 1) + text.length := Nat.add_comm _ _
  cases elsewhere with
  | code noBackslash =>
    by_cases isCode : IsCode c
    · rw [CodeMode.strip_cons isCode]
      by_cases isSpace : c = ' '
      · subst isSpace
        exact .inl (.intro one (.code (by decide)) guarded.2)
      · exact .inr fun same => isSpace (Option.some.inj same)
    · obtain rfl | isQuote := hash_or_isQuote isCode
      · exact .inr (by rw [CodeMode.strip_hash]; nofun)
      · -- the quote itself would come behind a backslash, which is not blanked out in code
        have other : c ≠ q := fun same => noBackslash (guarded.1 same)
        left
        by_cases double : [c, c] <+: text ++ q :: rest
        · obtain ⟨text', rfl⟩ := exists_of_double_prefix other double
          rw [List.cons_append, List.cons_append, CodeMode.strip_opened isQuote]
          exact .intro (by simp; omega) (.long isQuote other) guarded.2.2.2
        · rw [CodeMode.strip_quote isQuote double]
          exact .intro one (.short isQuote other) guarded.2
  | @short q' _ isQuote other =>
    left
    by_cases closes : c = q'
    · subst closes
      rw [CodeMode.strip_short_quote]
      exact .intro one (.code isQuote.ne_backslash) guarded.2
    · rw [CodeMode.strip_short_cons closes]
      exact .intro one (.short isQuote other) guarded.2
  | @long q' _ isQuote other =>
    left
    by_cases closes : [q', q', q'] <+: c :: (text ++ q :: rest)
    · obtain ⟨rfl, double⟩ := List.cons_prefix_cons.mp closes
      obtain ⟨text', rfl⟩ := exists_of_double_prefix other double
      rw [List.cons_append, List.cons_append, CodeMode.strip_long_mark isQuote]
      exact .intro (by simp; omega) (.code isQuote.ne_backslash) guarded.2.2.2
    · rw [CodeMode.strip_long_cons closes]
      exact .intro one (.long isQuote other) guarded.2

/-- Outside the literals that the quote opened, the quote behind a text opens one or is in another, and
the code behind it is blanked out. -/
theorem strip_quote_fst {mode : CodeMode} {prev : Char} (isQuote : IsQuote q)
    (isCode : ∀ c ∈ rest, IsCode c) (elsewhere : Elsewhere q mode prev) :
    (mode.strip (q :: rest)).1 = spaces (1 + rest.length) := by
  have blanked {stripped : List Char × CodeMode} (isBlank : stripped.1 = spaces rest.length) :
      (CodeMode.behindSpaces 1 stripped).1 = spaces (1 + rest.length) := by
    rw [CodeMode.behindSpaces, isBlank]
    exact List.replicate_append_replicate
  cases elsewhere with
  | code noBackslash =>
    have single : ¬ [q, q] <+: rest := by
      rintro ⟨after, rfl⟩
      exact isQuote.not_isCode (isCode q (by simp))
    rw [CodeMode.strip_quote isQuote single]
    exact blanked (by rw [CodeMode.strip_short_unclosed (unclosed_of_isCode isQuote isCode _)])
  | short isQuote' other =>
    rw [CodeMode.strip_short_cons other.symm]
    exact blanked (by rw [CodeMode.strip_short_unclosed (unclosed_of_isCode isQuote' isCode _)])
  | long isQuote' other =>
    rw [CodeMode.strip_long_cons fun closes => other (List.cons_prefix_cons.mp closes).1]
    exact blanked (by rw [CodeMode.strip_long_unclosed (unclosed_of_isCode isQuote' isCode _)])

/-- Outside the literals that the quote opened, a text in which the quote is guarded is not blanked out
together with the quote behind it so that the code behind both is kept. -/
theorem strip_ne (isQuote : IsQuote q) (isCode : ∀ c ∈ rest, IsCode c) (visible : ∃ c ∈ rest, c ≠ ' ')
    {mode : CodeMode} {prev : Char} (elsewhere : Elsewhere q mode prev) (guarded : Guarded q prev text) :
    (mode.strip (text ++ q :: rest)).1 ≠ spaces (text.length + 1) ++ rest := by
  intro same
  -- three quotes are taken at once, so the induction is on the length
  induction size : text.length using Nat.strong_induction_on generalizing text mode prev with
  | h n ih =>
    cases text with
    | nil =>
      have blanked := strip_quote_fst isQuote isCode elsewhere
      rw [List.nil_append, blanked] at same
      exact spaces_ne visible (List.append_cancel_left (List.replicate_append_replicate.trans same))
    | cons c text =>
      obtain advances | shows := advances_or_shows rest elsewhere guarded
      · rw [List.cons_append] at same
        generalize mode.strip (c :: (text ++ q :: rest)) = stripped at advances same
        obtain @⟨m, text', mode', prev', length, elsewhere', guarded'⟩ := advances
        rw [length, Nat.add_assoc, behindSpaces_eq_iff] at same
        exact ih text'.length (by omega) elsewhere' guarded' same rfl
      · rw [List.cons_append] at same
        rw [same] at shows
        exact shows rfl

theorem getLast?_of_escapes (escapes : Escapes text) : text.getLast? = some '\\' := by
  unfold Escapes at escapes
  rw [List.getLast?_eq_head?_reverse]
  cases reversed : text.reverse with
  | nil =>
    rw [reversed] at escapes
    cases escapes
  | cons c front =>
    rw [reversed, List.takeWhile_cons] at escapes
    split at escapes
    · rename_i isBackslash
      rw [beq_iff_eq.mp isBackslash]
      rfl
    · cases escapes

/-- Behind the first quote in a literal that has escaped ones, the quote is guarded. -/
theorem guarded_of_closedBy {text' : List Char}
    (closed : Reading.escaping.ClosedBy [q] (text ++ q :: text') rest) : Guarded q q text' := by
  refine guarded_of_getLast? fun front back split => ?_
  have escapes : Escapes (text ++ q :: front) := by
    refine closed.earlier (text ++ q :: front) (back ++ [q] ++ rest) ?_ ?_
    · simp [split]
    · simp only [split, List.length_append, List.length_cons]
      omega
  have last := getLast?_of_escapes escapes
  rw [List.getLast?_append, List.getLast?_cons, Option.some_or] at last
  rw [List.getLast?_cons, last]

end Behind

/-! ## Lines with one literal -/

/-- A line with one literal, between code of which something is to be seen behind the literal. -/
structure LiteralLine where
  before : List Char
  quote : Char
  text : List Char
  rest : List Char
  isQuote : IsQuote quote
  codeBefore : ∀ c ∈ before, IsCode c
  codeBehind : ∀ c ∈ rest, IsCode c
  visible : ∃ c ∈ rest, c ≠ ' '
  closed : Reading.escaping.ClosedBy [quote] text rest

namespace LiteralLine

variable {R : Reading} {l : LiteralLine}

def line (l : LiteralLine) : List Char :=
  l.before ++ l.quote :: (l.text ++ [l.quote] ++ l.rest)

def code (l : LiteralLine) : List Char :=
  l.before ++ (spaces (l.text.length + 2) ++ l.rest)

theorem single (l : LiteralLine) : ¬ [l.quote, l.quote] <+: l.text ++ [l.quote] ++ l.rest :=
  not_double l.closed Reading.escaping_not_passes_nil l.isQuote l.codeBehind

theorem strips_of_closedBy (closed : R.ClosedBy [l.quote] l.text l.rest) :
    StripsAll R none [l.line] [l.code] :=
  .cons (.append_code l.codeBefore
    (.closed l.isQuote l.single rfl closed (.of_isCode l.codeBehind))) .nil

theorem not_mem_of_strips (strips : StripsAll .escaping none [l.line] (stripLines .code [l.line])) :
    l.quote ∉ l.text := by
  intro member
  have same : (CodeMode.code.strip l.line).1 = l.code :=
    (List.cons.inj (strips.unique Reading.escaping_exclusive (strips_of_closedBy l.closed))).1
  obtain ⟨front, back, isText, notMem⟩ := List.eq_append_cons_of_mem member
  -- the audit ends the literal at its first quote, and goes on outside of it
  have firstMark : Reading.firstMark.ClosedBy [l.quote] front (back ++ l.quote :: l.rest) :=
    closedBy_of_not_mem notMem trivial
  have parts : l.text ++ [l.quote] ++ l.rest =
      front ++ [l.quote] ++ (back ++ l.quote :: l.rest) := by simp [isText]
  have length : l.text.length + 2 = (1 + (front.length + 1)) + (back.length + 1) := by
    simp only [isText, List.length_append, List.length_cons]
    omega
  rw [line, code, CodeMode.strip_append l.codeBefore] at same
  have behind := List.append_cancel_left same
  rw [CodeMode.strip_quote l.isQuote l.single, parts, CodeMode.strip_short_closed firstMark,
    CodeMode.behindSpaces_behindSpaces, length, behindSpaces_eq_iff] at behind
  have closed := l.closed
  rw [isText] at closed
  exact strip_ne l.isQuote l.codeBehind l.visible (.code l.isQuote.ne_backslash)
    (guarded_of_closedBy closed) behind

theorem strips_of_not_mem (notMem : l.quote ∉ l.text) :
    StripsAll .escaping none [l.line] (stripLines .code [l.line]) :=
  strips_of_plain (strips_of_closedBy (R := .plain) (closedBy_of_not_mem notMem l.closed.ends))

end LiteralLine

/-- The audit strips the literals that end at their first mark, and the comments; the lines that hold code
are lines with what is left of them.  That is right as long as no literal has a first mark that is
escaped.  On a line with one literal and something to be seen behind it, it is right exactly if there is
no escaped quote in the literal. -/
theorem literals_stripped_iff (lines : List (List Char)) (l : LiteralLine) :
    (∀ outs, StripsAll .firstMark none lines outs ↔ outs = stripLines .code lines) ∧
    (∀ c ∈ codeLines lines, ∃ i line, lines[i]? = some line ∧ c.number = i + 1 ∧
      c.line = Text.dropEnd Text.isBlank line ∧ (stripLines .code lines)[i]? = some c.code) ∧
    (∀ outs, StripsAll .plain none lines outs →
      StripsAll .escaping none lines (stripLines .code lines)) ∧
    (StripsAll .escaping none [l.line] (stripLines .code [l.line]) ↔ l.quote ∉ l.text) :=
  ⟨fun _ => stripsAll_firstMark_iff, fun _ => exists_of_mem_codeLines, fun _ => strips_of_plain,
    LiteralLine.not_mem_of_strips, LiteralLine.strips_of_not_mem⟩

theorem escaped_closedBy : Reading.escaping.ClosedBy ['\''] "it\\'s".toList " + y / 2".toList := by
  have escaped : ∀ n < 5, ("it\\'s' + y / 2".toList)[n]? = some '\'' →
      Escapes ("it\\'s' + y / 2".toList.take n) := by decide
  refine ⟨show ¬ Escapes _ by decide, fun before after split shorter => ?_⟩
  have line : "it\\'s' + y / 2".toList = before ++ '\'' :: after := by
    rw [List.append_assoc before] at split
    exact Eq.trans (by decide) split
  have found := escaped before.length shorter
  rw [line, List.getElem?_append_right (Nat.le_refl _), Nat.sub_self, List.take_left] at found
  exact found rfl

def escapedLine : LiteralLine where
  before := "x = ".toList
  quote := '\''
  text := "it\\'s".toList
  rest := " + y / 2".toList
  isQuote := .inr rfl
  codeBefore := isCode_of_all (by decide)
  codeBehind := isCode_of_all (by decide)
  visible := ⟨'+', by decide, by decide⟩
  closed := escaped_closedBy

/-- The audit blanks out the division instead of the literal, and reports nothing. -/
theorem escaped_quote_hides_division :
    escapedLine.line = "x = 'it\\'s' + y / 2".toList ∧
    StripsAll .escaping none [escapedLine.line] ["x =         + y / 2".toList] ∧
    stripLines .code [escapedLine.line] = ["x =      s         ".toList] ∧
    ¬ StripsAll .escaping none [escapedLine.line] (stripLines .code [escapedLine.line]) ∧
    floatFindings [escapedLine.line] = [] := by
  refine ⟨by decide, LiteralLine.strips_of_closedBy escapedLine.closed, by decide, fun strips => ?_,
    by decide⟩
  exact LiteralLine.not_mem_of_strips strips (by decide)

end Audit

end PegPool
