import Mathlib.Data.List.TakeWhile
import Mathlib.Data.Nat.Digits.Defs
import PegPool.Proofs.Text.Decimal

/-!
# The grammar of numerals

`Numeral cs z` says that a text writes an integer, without a word on how it is read: blanks, a sign or
none, digits of any script with single underscores between them, and blanks.  `readNumeral` reads these
texts, as these integers, and no others (`readNumeral_eq_ok`).

Among the numerals of a natural number one is `Canonical`, the text that the number is written in
(`canonical_toString`, `Canonical.eq_toString`).
-/

namespace PegPool.Text

/-! ## Digits -/

/-- The character is the digit `d` of some script. -/
def IsDigit (c : Char) (d : Nat) : Prop :=
  ∃ start ∈ zeros, d < 10 ∧ c.toNat = start + d

/-- The digits of a script end before those of the next one begin. -/
theorem zeros_apart : zeros.Pairwise fun start next => start + 10 ≤ next := by
  decide +kernel

theorem digit?_eq_some {c : Char} {d : Nat} : digit? c = some d ↔ IsDigit c d := by
  constructor
  · intro read
    obtain ⟨start, found, value⟩ := Option.map_eq_some_iff.mp read
    have within := List.find?_some found
    simp only [Bool.and_eq_true, decide_eq_true_eq] at within
    exact ⟨start, List.mem_of_find?_eq_some found, by omega, by omega⟩
  · rintro ⟨start, member, small, code⟩
    obtain ⟨before, after, parts⟩ := List.append_of_mem member
    have apart := zeros_apart
    rw [parts, List.pairwise_append] at apart
    rw [digit?, Option.map_eq_some_iff]
    refine ⟨start, List.find?_eq_some_iff_append.mpr ⟨?_, before, after, parts, ?_⟩, by omega⟩
    · simp only [Bool.and_eq_true, decide_eq_true_eq]
      omega
    · intro earlier isBefore
      have ends := apart.2.2 earlier isBefore start List.mem_cons_self
      simp only [Bool.not_eq_true', Bool.and_eq_false_iff, decide_eq_false_iff_not]
      omega

theorem IsDigit.notSpacing {c : Char} {d : Nat} (digit : IsDigit c d) : isSpacing c = false := by
  obtain ⟨start, member, small, code⟩ := digit
  have table : ∀ start ∈ zeros, ∀ d < 10, isSpacing (Char.ofNat (start + d)) = false := by
    decide +kernel
  rw [← Char.ofNat_toNat c, code]
  exact table start member d small

theorem IsDigit.ne {c d : Char} {n : Nat} (digit : IsDigit c n) (other : digit? d = none) : c ≠ d := by
  rintro rfl
  cases other.symm.trans (digit?_eq_some.mpr digit)

/-- A row of digits, in which single underscores may stand between two of them, and the values of the
digits. -/
inductive DigitRow : List Char → List Nat → Prop where
  | last {c : Char} {d : Nat} (digit : IsDigit c d) : DigitRow [c] [d]
  | next {c : Char} {d : Nat} {cs : List Char} {ds : List Nat} (digit : IsDigit c d)
      (rest : DigitRow cs ds) : DigitRow (c :: cs) (d :: ds)
  | underscore {c : Char} {d : Nat} {cs : List Char} {ds : List Nat} (digit : IsDigit c d)
      (rest : DigitRow cs ds) : DigitRow (c :: '_' :: cs) (d :: ds)

namespace DigitRow

variable {cs : List Char} {ds : List Nat}

theorem exists_head (row : DigitRow cs ds) : ∃ c d rest, IsDigit c d ∧ cs = c :: rest := by
  cases row with
  | last digit => exact ⟨_, _, _, digit, rfl⟩
  | next digit _ => exact ⟨_, _, _, digit, rfl⟩
  | underscore digit _ => exact ⟨_, _, _, digit, rfl⟩

theorem notSpacing (row : DigitRow cs ds) : ∀ c ∈ cs, isSpacing c = false := by
  induction row with
  | last digit =>
    intro c member
    rw [List.mem_singleton.mp member]
    exact digit.notSpacing
  | next digit _ inductionHypothesis =>
    exact List.forall_mem_cons.mpr ⟨digit.notSpacing, inductionHypothesis⟩
  | underscore digit _ inductionHypothesis =>
    exact List.forall_mem_cons.mpr
      ⟨digit.notSpacing, List.forall_mem_cons.mpr ⟨by decide, inductionHypothesis⟩⟩

theorem readDigits_eq (row : DigitRow cs ds) : readDigits digit? cs = some ds := by
  induction row with
  | last digit =>
    rw [readDigits, digit?_eq_some.mpr digit]
    rfl
  | next digit rest inductionHypothesis =>
    obtain ⟨c, d, behind, first, rfl⟩ := rest.exists_head
    rw [readDigits, digit?_eq_some.mpr digit, inductionHypothesis]
    · rfl
    · exact List.cons_ne_nil c behind
    · intro behind' begins
      exact first.ne rfl (List.cons.inj begins).1
  | underscore digit _ inductionHypothesis =>
    rw [readDigits, digit?_eq_some.mpr digit, inductionHypothesis]
    rfl

theorem of_readDigits (read : readDigits digit? cs = some ds) : DigitRow cs ds := by
  induction cs using readDigits.induct generalizing ds with
  | case1 => cases read
  | case2 c =>
    obtain ⟨d, digit, values⟩ := Option.bind_eq_some_iff.mp read
    cases values
    exact .last (digit?_eq_some.mp digit)
  | case3 c rest inductionHypothesis =>
    rw [readDigits] at read
    obtain ⟨d, digit, read⟩ := Option.bind_eq_some_iff.mp read
    obtain ⟨behind, row, values⟩ := Option.bind_eq_some_iff.mp read
    cases values
    exact .underscore (digit?_eq_some.mp digit) (inductionHypothesis row)
  | case4 c rest more noUnderscore inductionHypothesis =>
    rw [readDigits] at read
    · obtain ⟨d, digit, read⟩ := Option.bind_eq_some_iff.mp read
      obtain ⟨behind, row, values⟩ := Option.bind_eq_some_iff.mp read
      cases values
      exact .next (digit?_eq_some.mp digit) (inductionHypothesis row)
    · exact more
    · exact noUnderscore

end DigitRow

theorem ofDigits_eq (ds : List Nat) : ofDigits ds = Nat.ofDigits 10 ds.reverse := by
  rw [Nat.ofDigits_eq_foldr, List.foldr_reverse, ofDigits]
  exact congrArg (ds.foldl · 0) (funext₂ fun n d => Nat.add_comm _ _)

/-! ## Signs -/

inductive Sign where
  | none
  | plus
  | minus
deriving DecidableEq, Repr

namespace Sign

def text : Sign → List Char
  | none => []
  | plus => ['+']
  | minus => ['-']

def isMinus : Sign → Bool
  | minus => true
  | _ => false

def apply (sign : Sign) (n : Nat) : Int :=
  if sign.isMinus then -n else n

theorem notSpacing (sign : Sign) : ∀ c ∈ sign.text, isSpacing c = false := by
  cases sign with
  | none => exact List.forall_mem_nil _
  | plus | minus => exact List.forall_mem_singleton.mpr rfl

end Sign

theorem readSign_text {cs : List Char} {ds : List Nat} (sign : Sign) (row : DigitRow cs ds) :
    readSign (sign.text ++ cs) = (sign.isMinus, cs) := by
  cases sign with
  | plus => rfl
  | minus => rfl
  | none =>
    obtain ⟨c, d, rest, digit, rfl⟩ := row.exists_head
    rw [Sign.text, List.nil_append, readSign]
    · rfl
    · intro rest' begins
      exact digit.ne rfl (List.cons.inj begins).1
    · intro rest' begins
      exact digit.ne rfl (List.cons.inj begins).1

theorem exists_sign (cs : List Char) :
    ∃ (sign : Sign) (rest : List Char), cs = sign.text ++ rest ∧ readSign cs = (sign.isMinus, rest) := by
  unfold readSign
  split
  case h_1 rest => exact ⟨.minus, rest, rfl, rfl⟩
  case h_2 rest => exact ⟨.plus, rest, rfl, rfl⟩
  case h_3 rest _ _ => exact ⟨.none, cs, rfl, rfl⟩

/-! ## Blanks -/

theorem exists_trim (p : Char → Bool) (cs : List Char) :
    ∃ front back, (∀ c ∈ front, p c = true) ∧ (∀ c ∈ back, p c = true) ∧
      cs = front ++ trim p cs ++ back := by
  refine ⟨cs.takeWhile p, ((cs.dropWhile p).reverse.takeWhile p).reverse, ?_, ?_, ?_⟩
  · intro c member
    exact List.mem_takeWhile_imp member
  · intro c member
    exact List.mem_takeWhile_imp (List.mem_reverse.mp member)
  · rw [trim, dropEnd, List.append_assoc, ← List.reverse_append, List.takeWhile_append_dropWhile,
      List.reverse_reverse, List.takeWhile_append_dropWhile]

theorem trim_append {p : Char → Bool} {front core back : List Char}
    (blankFront : ∀ c ∈ front, p c = true) (nonempty : core ≠ []) (none : ∀ c ∈ core, p c = false)
    (blankBack : ∀ c ∈ back, p c = true) :
    trim p (front ++ core ++ back) = core := by
  have dropsFront : (front ++ core ++ back).dropWhile p = core ++ back := by
    obtain ⟨c, rest, rfl⟩ := List.exists_cons_of_ne_nil nonempty
    have stands := none c List.mem_cons_self
    rw [List.append_assoc, List.dropWhile_append_of_pos blankFront, List.cons_append,
      List.dropWhile_cons_of_neg (Bool.eq_false_iff.mp stands)]
  have dropsBack : (core ++ back).reverse.dropWhile p = core.reverse := by
    rw [List.reverse_append, List.dropWhile_append_of_pos, dropWhile_eq_self]
    · intro c member
      exact none c (List.mem_reverse.mp member)
    · intro c member
      exact blankBack c (List.mem_reverse.mp member)
  rw [trim, dropsFront, dropEnd, dropsBack, List.reverse_reverse]

/-! ## Numerals -/

/-- The text writes the integer. -/
inductive Numeral : List Char → Int → Prop where
  | intro {front cs back : List Char} {ds : List Nat}
      (blankFront : ∀ c ∈ front, isSpacing c = true)
      (sign : Sign) (row : DigitRow cs ds) (short : ds.length ≤ maxNumeralDigits)
      (blankBack : ∀ c ∈ back, isSpacing c = true) :
      Numeral (front ++ (sign.text ++ cs) ++ back) (sign.apply (Nat.ofDigits 10 ds.reverse))

theorem Numeral.readNumeral_eq {cs : List Char} {z : Int} (numeral : Numeral cs z) :
    readNumeral cs = .ok z := by
  obtain @⟨front, cs, back, ds, blankFront, sign, row, short, blankBack⟩ := numeral
  -- without a blank between sign and digits, trimming stops at both of them
  have noBlank : ∀ c ∈ sign.text ++ cs, isSpacing c = false :=
    List.forall_mem_append.mpr ⟨sign.notSpacing, row.notSpacing⟩
  have nonempty : sign.text ++ cs ≠ [] := by
    obtain ⟨c, d, rest, -, rfl⟩ := row.exists_head
    exact List.append_ne_nil_of_right_ne_nil _ (List.cons_ne_nil c rest)
  rw [readNumeral, trim_append blankFront nonempty noBlank blankBack, readSign_text sign row]
  dsimp only
  rw [row.readDigits_eq]
  dsimp only
  rw [if_neg (Nat.not_lt.mpr short), signedValue, ofDigits_eq]
  rfl

theorem Numeral.of_readNumeral {cs : List Char} {z : Int} (read : readNumeral cs = .ok z) :
    Numeral cs z := by
  obtain ⟨front, back, blankFront, blankBack, parts⟩ := exists_trim isSpacing cs
  obtain ⟨sign, body, signed, signRead⟩ := exists_sign (trim isSpacing cs)
  rw [readNumeral, signRead] at read
  dsimp only at read
  cases digits : readDigits digit? body with
  | none =>
    rw [digits] at read
    cases read
  | some ds =>
    rw [digits] at read
    dsimp only at read
    split at read
    · cases read
    · rename_i short
      cases read
      rw [parts, signed, signedValue, ofDigits_eq]
      exact .intro blankFront sign (.of_readDigits digits) (Nat.not_lt.mp short) blankBack

/-- The reader takes the numerals, as the integers they write, and no other text. -/
theorem readNumeral_eq_ok {cs : List Char} {z : Int} : readNumeral cs = .ok z ↔ Numeral cs z :=
  ⟨.of_readNumeral, Numeral.readNumeral_eq⟩

/-- A text writes no more than one integer. -/
theorem Numeral.unique {cs : List Char} {y z : Int} (first : Numeral cs y) (second : Numeral cs z) :
    y = z :=
  Except.ok.inj (first.readNumeral_eq.symm.trans second.readNumeral_eq)

/-! ## Canonical texts -/

/-- Digits of ASCII, without a zero in front of others. -/
structure Canonical (cs : List Char) : Prop where
  nonempty : cs ≠ []
  ascii : ∀ c ∈ cs, c.isDigit = true
  noZeroInFront : cs.head? = some '0' → cs = ['0']

theorem eq_zero_of_toDigits {n : Nat} {rest : List Char} (begins : Nat.toDigits 10 n = '0' :: rest) :
    n = 0 := by
  induction n using Nat.strongRecOn generalizing rest with
  | ind n inductionHypothesis =>
    by_cases small : n < 10
    · have onlyZero : ∀ d < 10, Nat.digitChar d = '0' → d = 0 := by decide
      rw [Nat.toDigits_of_lt_base small] at begins
      exact onlyZero n small (List.cons.inj begins).1
    · rw [Nat.toDigits_of_base_le (by decide) (by omega)] at begins
      obtain ⟨c, front, isFront⟩ :=
        List.exists_cons_of_ne_nil (Nat.toDigits_ne_nil (b := 10) (n := n / 10))
      rw [isFront, List.cons_append, List.cons.injEq] at begins
      have := inductionHypothesis (n / 10) (by omega) (begins.1 ▸ isFront)
      omega

theorem canonical_toString (n : Nat) : Canonical (toString n).toList := by
  rw [Nat.toString_eq_ofList_toDigits, String.toList_ofList]
  refine ⟨Nat.toDigits_ne_nil, ?_, ?_⟩
  · intro c member
    exact Nat.isDigit_of_mem_toDigits (by decide) (by decide) member
  · intro begins
    obtain ⟨rest, isText⟩ := List.head?_eq_some_iff.mp begins
    rw [eq_zero_of_toDigits isText]
    rfl

theorem digitChar_of_isDigit {c : Char} (isDigit : c.isDigit = true) :
    c.toNat - 48 < 10 ∧ Nat.digitChar (c.toNat - 48) = c := by
  obtain ⟨least, most⟩ := Char.isDigit_iff_toNat.mp isDigit
  have least : 48 ≤ c.toNat := least
  have most : c.toNat ≤ 57 := most
  refine ⟨by omega, Char.toNat_inj.mp ?_⟩
  rw [Nat.toNat_digitChar_of_lt_ten (by omega), Nat.add_comm, Nat.sub_add_cancel least]

/-- Digits behind a number that is not zero are digits of the whole. -/
theorem toDigits_ofDigitChars {cs : List Char} (ascii : ∀ c ∈ cs, c.isDigit = true) {n : Nat}
    (positive : 0 < n) : Nat.toDigits 10 (Nat.ofDigitChars 10 cs n) = Nat.toDigits 10 n ++ cs := by
  induction cs generalizing n with
  | nil => rw [Nat.ofDigitChars_nil, List.append_nil]
  | cons c cs inductionHypothesis =>
    obtain ⟨isDigit, behind⟩ := List.forall_mem_cons.mp ascii
    obtain ⟨small, isChar⟩ := digitChar_of_isDigit isDigit
    have appended := Nat.toDigits_append_toDigits (b := 10) (n := n) (d := c.toNat - 48) (by decide)
      positive small
    rw [Nat.toDigits_of_lt_base small, isChar] at appended
    have rest := inductionHypothesis behind (n := 10 * n + (c.toNat - 48)) (by omega)
    rw [Nat.ofDigitChars_cons, List.append_cons, appended]
    exact rest

theorem Canonical.toDigits_eq {cs : List Char} (canonical : Canonical cs) :
    Nat.toDigits 10 (Nat.ofDigitChars 10 cs 0) = cs := by
  obtain ⟨c, rest, rfl⟩ := List.exists_cons_of_ne_nil canonical.nonempty
  obtain ⟨isDigit, behind⟩ := List.forall_mem_cons.mp canonical.ascii
  by_cases begins : c = '0'
  · rw [canonical.noZeroInFront (by rw [begins, List.head?_cons])]
    rfl
  · obtain ⟨small, isChar⟩ := digitChar_of_isDigit isDigit
    have positive : 0 < c.toNat - 48 := by
      rw [Nat.pos_iff_ne_zero]
      intro zero
      rw [zero] at isChar
      exact begins isChar.symm
    have rest := toDigits_ofDigitChars behind positive
    rw [Nat.toDigits_of_lt_base small, isChar] at rest
    rw [Nat.ofDigitChars_cons, Nat.mul_zero, Nat.zero_add]
    exact rest

theorem Canonical.eq_toString {s : String} {n : Nat} (canonical : Canonical s.toList)
    (numeral : Numeral s.toList n) : s = toString n := by
  have read := numeral.readNumeral_eq
  rw [readNumeral_eq_ite canonical.nonempty canonical.ascii] at read
  split at read
  · cases read
  · have value := Int.natCast_inj.mp (Except.ok.inj read)
    rw [Nat.toString_eq_ofList_toDigits, ← value, canonical.toDigits_eq, String.ofList_toList]

end PegPool.Text
