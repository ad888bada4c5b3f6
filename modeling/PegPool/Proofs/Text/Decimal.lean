import PegPool.AmountText

/-!
# Decimal texts

The text that a number is written in is read as that number again, by `readNumeral` as well as in the
form of an amount.
-/

namespace PegPool.Text

theorem dropWhile_eq_self {p : Char → Bool} {cs : List Char} (none : ∀ c ∈ cs, p c = false) :
    cs.dropWhile p = cs := by
  cases cs with
  | nil => rfl
  | cons c rest => rw [List.dropWhile_cons, none c List.mem_cons_self, if_neg Bool.false_ne_true]

theorem trim_eq_self {p : Char → Bool} {cs : List Char} (none : ∀ c ∈ cs, p c = false) :
    trim p cs = cs := by
  rw [trim, dropWhile_eq_self none, dropEnd, dropWhile_eq_self, List.reverse_reverse]
  intro c member
  exact none c (List.mem_reverse.mp member)

/-- A digit of ASCII is a digit, and none of the other characters of a numeral. -/
theorem digit?_of_isDigit {c : Char} (isDigit : c.isDigit = true) :
    digit? c = some (c.toNat - 48) := by
  obtain ⟨least, most⟩ := Char.isDigit_iff_toNat.mp isDigit
  have first : (decide (0x30 ≤ c.toNat) && decide (c.toNat < 0x30 + 10)) = true := by
    simp only [Bool.and_eq_true, decide_eq_true_eq]
    exact ⟨least, Nat.lt_succ_of_le most⟩
  rw [digit?, zeros, List.find?_cons, first]
  rfl

theorem ne_of_isDigit {c d : Char} (isDigit : c.isDigit = true) (other : d.isDigit = false) :
    c ≠ d := by
  rintro rfl
  rw [isDigit] at other
  cases other

theorem isSpacing_of_isDigit {c : Char} (isDigit : c.isDigit = true) : isSpacing c = false := by
  obtain ⟨least, most⟩ := Char.isDigit_iff_toNat.mp isDigit
  have least : 48 ≤ c.toNat := least
  have most : c.toNat ≤ 57 := most
  simp only [isSpacing, Bool.or_eq_false_iff, Bool.and_eq_false_iff, decide_eq_false_iff_not,
    beq_eq_false_iff_ne]
  omega

theorem readSign_of_isDigit {cs : List Char} (digits : ∀ c ∈ cs, c.isDigit = true) :
    readSign cs = (false, cs) := by
  unfold readSign
  split
  · exact absurd rfl (ne_of_isDigit (digits '-' List.mem_cons_self) rfl)
  · exact absurd rfl (ne_of_isDigit (digits '+' List.mem_cons_self) rfl)
  · rfl

theorem readDigits_of_isDigit {cs : List Char} (nonempty : cs ≠ [])
    (digits : ∀ c ∈ cs, c.isDigit = true) :
    readDigits digit? cs = some (cs.map fun c => c.toNat - 48) := by
  induction cs using readDigits.induct with
  | case1 => exact absurd rfl nonempty
  | case2 c =>
    rw [readDigits, digit?_of_isDigit (digits c List.mem_cons_self)]
    rfl
  | case3 c rest _ =>
    exact absurd rfl (ne_of_isDigit (digits '_' (List.mem_cons_of_mem c List.mem_cons_self)) rfl)
  | case4 c rest more noUnderscore inductionHypothesis =>
    rw [readDigits, digit?_of_isDigit (digits c List.mem_cons_self),
      inductionHypothesis more fun d member => digits d (List.mem_cons_of_mem c member)]
    · rfl
    · exact more
    · exact noUnderscore

/-- Digits alone are read as the number that they write, unless there are too many. -/
theorem readNumeral_eq_ite {cs : List Char} (nonempty : cs ≠ []) (digits : ∀ c ∈ cs, c.isDigit = true) :
    readNumeral cs = if maxNumeralDigits < cs.length then .error (.tooLong cs.length)
      else .ok (Nat.ofDigitChars 10 cs 0) := by
  have written : readSign (trim isSpacing cs) = (false, cs) := by
    rw [trim_eq_self fun c member => isSpacing_of_isDigit (digits c member)]
    exact readSign_of_isDigit digits
  rw [readNumeral, written]
  dsimp only
  rw [readDigits_of_isDigit nonempty digits]
  dsimp only
  rw [List.length_map, signedValue, if_neg Bool.false_ne_true, ofDigits, List.foldl_map,
    Nat.ofDigitChars_eq_foldl]
  rfl

theorem readNumeral_of_isDigit {cs : List Char} (nonempty : cs ≠ [])
    (digits : ∀ c ∈ cs, c.isDigit = true) (short : cs.length ≤ maxNumeralDigits) :
    readNumeral cs = .ok (Nat.ofDigitChars 10 cs 0) := by
  rw [readNumeral_eq_ite nonempty digits, if_neg (Nat.not_lt.mpr short)]

theorem readNumeral_toString {n : Nat} (fits : n < 1 <<< 64) :
    readNumeral (toString n).toList = .ok n := by
  have short : (Nat.toDigits 10 n).length ≤ 20 :=
    (Nat.length_toDigits_le_iff (by decide) (by decide)).mpr (by omega)
  rw [Nat.toString_eq_ofList_toDigits, String.toList_ofList, readNumeral_of_isDigit Nat.toDigits_ne_nil,
    Nat.ofDigitChars_ten_toDigits]
  · intro c member
    exact Nat.isDigit_of_mem_toDigits (by decide) (by decide) member
  · exact Nat.le_trans short (by decide)

end PegPool.Text
