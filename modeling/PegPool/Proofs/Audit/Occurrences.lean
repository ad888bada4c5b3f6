import PegPool.Audit.Pattern

/-!
# Texts in texts

The audit finds a text in another one exactly if it is a part of it (`occurs_iff`).  A text that can hold
a separator at its end only is on one side of each separator of the other one (`infix_append_cons_iff`).
-/

namespace PegPool

namespace Audit

theorem occurs_iff {needle text : List Char} : occurs needle text = true ↔ needle <:+: text := by
  induction text with
  | nil => rw [occurs, List.isEmpty_iff, List.infix_nil]
  | cons c rest ih =>
    rw [occurs, Bool.or_eq_true, List.isPrefixOf_iff_prefix, ih, List.infix_cons_iff]

section Separator

variable {needle before after : List Char} {c : Char}

theorem prefix_of_prefix_append_cons (before : List Char) (atEnd : c ∉ needle.dropLast)
    (isPrefix : needle <+: before ++ c :: after) : needle <+: before ++ [c] := by
  have first : before ++ [c] <+: before ++ c :: after := ⟨after, (List.append_cons _ _ _).symm⟩
  by_cases fits : needle.length ≤ (before ++ [c]).length
  · exact List.prefix_of_prefix_length_le isPrefix first fits
  · obtain ⟨rest, rfl⟩ := List.prefix_of_prefix_length_le first isPrefix (by omega)
    have notNil : rest ≠ [] := by
      rintro rfl
      exact fits (List.append_nil _ ▸ Nat.le_refl _)
    rw [List.dropLast_append_of_ne_nil notNil] at atEnd
    exact absurd (by simp) atEnd

theorem infix_append_cons_iff (atEnd : c ∉ needle.dropLast) :
    needle <:+: before ++ c :: after ↔ needle <:+: before ++ [c] ∨ needle <:+: after := by
  constructor
  · intro isInfix
    induction before with
    | nil =>
      obtain isPrefix | behind := List.infix_cons_iff.mp isInfix
      · exact .inl (prefix_of_prefix_append_cons [] atEnd isPrefix).isInfix
      · exact .inr behind
    | cons d before ih =>
      obtain isPrefix | later := List.infix_cons_iff.mp isInfix
      · exact .inl (prefix_of_prefix_append_cons (d :: before) atEnd isPrefix).isInfix
      · exact (ih later).imp_left List.infix_cons
  · rintro (isFirst | isSecond)
    · rw [List.append_cons]
      exact isFirst.trans (List.prefix_append _ _).isInfix
    · rw [List.append_cons]
      exact isSecond.trans (List.suffix_append _ _).isInfix

theorem infix_concat_iff_of_not_mem (notMem : c ∉ needle) :
    needle <:+: before ++ [c] ↔ needle <:+: before := by
  constructor
  · intro isInfix
    obtain isSuffix | isInfix := List.infix_concat_iff.mp isInfix
    · obtain rfl | ⟨init, rfl, -⟩ := List.suffix_concat_iff.mp isSuffix
      · exact List.nil_infix
      · exact absurd (by simp) notMem
    · exact isInfix
  · exact fun isInfix => isInfix.trans (List.prefix_append _ _).isInfix

theorem concat_infix_concat_iff (notMem : c ∉ before) :
    needle ++ [c] <:+: before ++ [c] ↔ needle <:+ before := by
  constructor
  · intro isInfix
    obtain isSuffix | isInfix := List.infix_concat_iff.mp isInfix
    · obtain isNil | ⟨init, split, isSuffix⟩ := List.suffix_concat_iff.mp isSuffix
      · exact absurd isNil (by simp)
      · exact List.append_cancel_right split ▸ isSuffix
    · exact absurd (isInfix.subset (by simp)) notMem
  · rintro ⟨front, rfl⟩
    exact (List.suffix_append front (needle ++ [c])).isInfix.trans (by simp)

end Separator

end Audit

end PegPool
