import PegPool.Audit.Finding

/-!
# Lines of code

Characters that neither open a literal nor begin a comment are kept as they are
(`CodeMode.strip_append`).  The lines that hold code have numbers of their own, so that a finding tells
which line it is about (`CodeLine.mem_flatMap_finding`).
-/

namespace PegPool

namespace Audit

/-- The character neither opens a literal nor begins a comment. -/
def IsCode (c : Char) : Prop :=
  c ≠ '"' ∧ c ≠ '\'' ∧ c ≠ '#'

instance (c : Char) : Decidable (IsCode c) :=
  inferInstanceAs (Decidable (_ ∧ _))

theorem isCode_of_all {cs : List Char} (all : (cs.all fun c => decide (IsCode c)) = true) :
    ∀ c ∈ cs, IsCode c :=
  fun c member => of_decide_eq_true (List.all_eq_true.mp all c member)

theorem exists_split_cons {c d : Char} {rest : List Char} {P : List Char → List Char → Prop} :
    (∃ before after, c :: rest = before ++ d :: after ∧ P before after) ↔
      (c = d ∧ P [] rest) ∨ ∃ before after, rest = before ++ d :: after ∧ P (c :: before) after := by
  constructor
  · rintro ⟨before, after, split, holds⟩
    cases before with
    | nil =>
      obtain ⟨rfl, rfl⟩ := List.cons.inj split
      exact .inl ⟨rfl, holds⟩
    | cons _ before =>
      obtain ⟨rfl, rfl⟩ := List.cons.inj split
      exact .inr ⟨before, after, rfl, holds⟩
  · rintro (⟨rfl, holds⟩ | ⟨before, after, rfl, holds⟩)
    · exact ⟨[], rest, rfl, holds⟩
    · exact ⟨c :: before, after, rfl, holds⟩

namespace CodeMode

variable {cs rest : List Char}

theorem strip_cons {c : Char} (isCode : IsCode c) :
    strip .code (c :: rest) = (c :: (strip .code rest).1, (strip .code rest).2) := by
  obtain ⟨notDouble, notSingle, notHash⟩ := isCode
  rw [strip, if_neg notHash, if_neg (not_or.mpr ⟨notDouble, notSingle⟩)]
  · exact fun _ isQuote => absurd isQuote notDouble
  · exact fun _ isQuote => absurd isQuote notSingle

theorem strip_append (isCode : ∀ c ∈ cs, IsCode c) :
    strip .code (cs ++ rest) = (cs ++ (strip .code rest).1, (strip .code rest).2) := by
  induction cs with
  | nil => rfl
  | cons c cs ih =>
    obtain ⟨first, others⟩ := List.forall_mem_cons.mp isCode
    rw [List.cons_append, strip_cons first, ih others]
    rfl

theorem strip_of_forall (isCode : ∀ c ∈ cs, IsCode c) : strip .code cs = (cs, .code) := by
  have stripped : strip .code (cs ++ []) = _ := strip_append isCode
  rw [List.append_nil] at stripped
  rw [stripped, strip, List.append_nil]
  rfl

end CodeMode

/-! ## Numbers of lines -/

section Numbers

variable {number : Nat} {mode : CodeMode} {line : List Char} {lines : List (List Char)}
  {l l' : CodeLine}

/-- The first line is passed over, or comes before the lines of code among the others. -/
theorem codeLinesFrom_cons (number : Nat) (mode : CodeMode) (line : List Char)
    (lines : List (List Char)) :
    codeLinesFrom number mode (line :: lines) = codeLinesFrom (number + 1) (mode.strip line).2 lines ∨
      codeLinesFrom number mode (line :: lines) =
        ⟨number, Text.dropEnd Text.isBlank line, (mode.strip line).1⟩ ::
          codeLinesFrom (number + 1) (mode.strip line).2 lines := by
  rw [codeLinesFrom]
  dsimp only
  split
  · exact .inl rfl
  · exact .inr rfl

theorem le_number (member : l ∈ codeLinesFrom number mode lines) : number ≤ l.number := by
  induction lines generalizing number mode with
  | nil => cases member
  | cons line lines ih =>
    obtain passed | kept := codeLinesFrom_cons number mode line lines
    · rw [passed] at member
      exact Nat.le_of_succ_le (ih member)
    · rw [kept] at member
      cases member with
      | head => exact Nat.le_refl _
      | tail _ member => exact Nat.le_of_succ_le (ih member)

theorem number_inj (member : l ∈ codeLinesFrom number mode lines)
    (member' : l' ∈ codeLinesFrom number mode lines) (same : l.number = l'.number) : l = l' := by
  induction lines generalizing number mode with
  | nil => cases member
  | cons line lines ih =>
    obtain passed | kept := codeLinesFrom_cons number mode line lines
    · rw [passed] at member member'
      exact ih member member'
    · rw [kept] at member member'
      cases member with
      | head =>
        cases member' with
        | head => rfl
        | tail _ member' => exact absurd same (Nat.ne_of_lt (le_number member'))
      | tail _ member =>
        cases member' with
        | head => exact absurd same.symm (Nat.ne_of_lt (le_number member))
        | tail _ member' => exact ih member member'

end Numbers

theorem CodeLine.mem_finding {l : CodeLine} {rule : Rule} {broken : Bool} {f : Finding} :
    f ∈ l.finding rule broken ↔ broken = true ∧ f = ⟨l.number, l.line, rule⟩ := by
  cases broken with
  | true => simp [finding]
  | false => simp [finding]

theorem mem_flatMap_findings {lines : List (List Char)} {l : CodeLine} (member : l ∈ codeLines lines)
    {found : CodeLine → List Finding} (own : ∀ l, ∀ f ∈ found l, f.number = l.number) {f : Finding}
    (about : f.number = l.number) :
    f ∈ (codeLines lines).flatMap found ↔ f ∈ found l := by
  rw [List.mem_flatMap]
  constructor
  · rintro ⟨l', member', isFound⟩
    obtain rfl : l = l' := number_inj member member' (about.symm.trans (own l' f isFound))
    exact isFound
  · exact fun isFound => ⟨l, member, isFound⟩

end Audit

end PegPool
