import PegPool.Proofs.Audit.Lines
import PegPool.Proofs.Audit.Occurrences

/-!
# Products that are found

A single star between two words is a product (`IsProduct`).  The audit looks at the first product of a
line only (`firstProduct?_eq`), so that it reports a product of amounts exactly if no other product comes
before it (`products_found_iff`).  On a line with one product that is right; of two the second one is
passed over.
-/

namespace PegPool

namespace Audit

open Text

theorem not_isWordChar_of_isBlank {c : Char} (blank : isBlank c = true) : isWordChar c = false := by
  have table : ∀ n ∈ List.range' 0x09 5 ++ List.range' 0x1C 5 ++ [0x85, 0xA0, 0x1680] ++
      List.range' 0x2000 11 ++ [0x2028, 0x2029, 0x202F, 0x205F, 0x3000],
      isWordChar (Char.ofNat n) = false := by decide +kernel
  rw [← Char.ofNat_toNat c]
  apply table
  simp only [isBlank, isSpacing, Bool.or_eq_true, Bool.and_eq_true, decide_eq_true_eq,
    beq_iff_eq] at blank
  simp only [List.mem_append, List.mem_range'_1, List.mem_cons, List.not_mem_nil]
  omega

/-! ## Words beside a star -/

/-- The word with which the text begins, blanks aside. -/
def wordAfter (cs : List Char) : List Char :=
  (cs.dropWhile isBlank).takeWhile isWordChar

/-- The word with which the text ends, blanks aside. -/
def wordBefore (cs : List Char) : List Char :=
  (wordAfter cs.reverse).reverse

/-- A single star between the two parts of the code, with a word on either side of it. -/
structure IsProduct (code before after : List Char) : Prop where
  split : code = before ++ '*' :: after
  aloneBefore : before.getLast? ≠ some '*'
  aloneAfter : after.head? ≠ some '*'
  left : wordBefore before ≠ []
  right : wordAfter after ≠ []

section Words

variable {c : Char} {cs before after : List Char}

theorem wordAfter_cons_word (isWord : isWordChar c = true) :
    wordAfter (c :: cs) = c :: cs.takeWhile isWordChar := by
  have notBlank : ¬ isBlank c = true := fun blank =>
    Bool.false_ne_true ((not_isWordChar_of_isBlank blank).symm.trans isWord)
  rw [wordAfter, List.dropWhile_cons_of_neg notBlank, List.takeWhile_cons_of_pos isWord]

theorem wordAfter_cons_blank (blank : isBlank c = true) : wordAfter (c :: cs) = wordAfter cs := by
  rw [wordAfter, List.dropWhile_cons_of_pos blank]
  rfl

theorem wordAfter_cons_other (notWord : ¬ isWordChar c = true) (notBlank : ¬ isBlank c = true) :
    wordAfter (c :: cs) = [] := by
  rw [wordAfter, List.dropWhile_cons_of_neg notBlank, List.takeWhile_cons_of_neg notWord]

theorem wordAfter_star : wordAfter ('*' :: cs) = [] :=
  wordAfter_cons_other (by decide) (by decide)

theorem takeWhile_isWordChar (cs : List Char) :
    cs.takeWhile isWordChar = if startsWith isWordChar cs then wordAfter cs else [] := by
  cases cs with
  | nil => rfl
  | cons c cs =>
    by_cases isWord : isWordChar c = true
    · rw [startsWith, if_pos isWord, wordAfter_cons_word isWord, List.takeWhile_cons_of_pos isWord]
    · rw [startsWith, if_neg isWord, List.takeWhile_cons_of_neg isWord]

theorem isProduct_iff : IsProduct (before ++ '*' :: after) before after ↔
    wordBefore before ≠ [] ∧ wordAfter after ≠ [] := by
  refine ⟨fun product => ⟨product.left, product.right⟩, fun ⟨left, right⟩ => ⟨rfl, ?_, ?_, left, right⟩⟩
  · intro isStar
    obtain ⟨init, rfl⟩ := List.getLast?_eq_some_iff.mp isStar
    exact left (by rw [wordBefore, List.reverse_append, List.reverse_singleton, List.singleton_append,
      wordAfter_star, List.reverse_nil])
  · intro isStar
    obtain ⟨rest, rfl⟩ := List.head?_eq_some_iff.mp isStar
    exact right wordAfter_star

end Words

/-! ## All products and the first one -/

/-- The parts beside the products of code behind a text, from left to right. -/
def productsFrom (before : List Char) : List Char → List (List Char × List Char)
  | [] => []
  | c :: rest =>
      if c = '*' ∧ wordBefore before ≠ [] ∧ wordAfter rest ≠ [] then
        (before, rest) :: productsFrom (before ++ [c]) rest
      else productsFrom (before ++ [c]) rest

def products (code : List Char) : List (List Char × List Char) :=
  productsFrom [] code

section Products

variable {code before after : List Char} {p : List Char × List Char}

theorem mem_productsFrom : p ∈ productsFrom before code ↔
    ∃ front after, code = front ++ '*' :: after ∧ p = (before ++ front, after) ∧
      wordBefore (before ++ front) ≠ [] ∧ wordAfter after ≠ [] := by
  induction code generalizing before with
  | nil => simp [productsFrom]
  | cons c rest ih =>
    have ih := @ih (before ++ [c])
    simp only [List.append_assoc, List.singleton_append] at ih
    rw [exists_split_cons, List.append_nil, ← ih, productsFrom]
    split
    case isTrue isProduct =>
      obtain ⟨isStar, words⟩ := isProduct
      simp [isStar, words]
    case isFalse notProduct =>
      refine ⟨.inr, ?_⟩
      rintro (⟨isStar, -, words⟩ | later)
      · exact absurd ⟨isStar, words⟩ notProduct
      · exact later

theorem mem_products : p ∈ products code ↔ IsProduct code p.1 p.2 := by
  rw [products, mem_productsFrom]
  constructor
  · rintro ⟨front, after, rfl, rfl, words⟩
    exact isProduct_iff.mpr words
  · intro product
    obtain ⟨front, after⟩ := p
    obtain rfl := product.split
    exact ⟨front, after, rfl, rfl, isProduct_iff.mp product⟩

theorem productsFrom_sorted (before code : List Char) :
    (productsFrom before code).Pairwise fun p q => p.1.length < q.1.length := by
  induction code generalizing before with
  | nil => exact .nil
  | cons c rest ih =>
    rw [productsFrom]
    split
    case isTrue =>
      refine .cons (fun q member => ?_) (ih _)
      obtain ⟨front, after, -, rfl, -⟩ := mem_productsFrom.mp member
      simp only [List.length_append, List.length_singleton]
      omega
    case isFalse => exact ih _

theorem head?_products : (products code).head? = some p ↔
    p ∈ products code ∧ ∀ q ∈ products code, p.1.length ≤ q.1.length := by
  have sorted := productsFrom_sorted [] code
  change (products code).Pairwise _ at sorted
  cases all : products code with
  | nil => simp
  | cons q rest =>
    rw [all] at sorted
    obtain ⟨first, -⟩ := List.pairwise_cons.mp sorted
    simp only [List.head?_cons, Option.some.injEq]
    constructor
    · rintro rfl
      refine ⟨List.mem_cons_self, fun p member => ?_⟩
      cases member with
      | head => exact Nat.le_refl _
      | tail _ member => exact Nat.le_of_lt (first p member)
    · rintro ⟨member, least⟩
      cases member with
      | head => rfl
      | tail _ member =>
        have := first p member
        have := least q List.mem_cons_self
        omega

def wordsBeside (p : List Char × List Char) : List Char × List Char :=
  (wordBefore p.1, wordAfter p.2)

theorem productsFrom_of_ne {c : Char} (notStar : c ≠ '*') :
    productsFrom before (c :: code) = productsFrom (before ++ [c]) code := by
  rw [productsFrom, if_neg fun isProduct => notStar isProduct.1]

/-- A second star needs no look of its own, as no word begins with it. -/
theorem star_between_words {c : Char} : (c == '*' && !(wordAfter before.reverse).isEmpty &&
      !startsWith (· == '*') after && !(wordAfter after).isEmpty) = true ↔
    c = '*' ∧ wordBefore before ≠ [] ∧ wordAfter after ≠ [] := by
  have single (isWord : wordAfter after ≠ []) : startsWith (· == '*') after = false := by
    cases after with
    | nil => rfl
    | cons d after =>
      refine Bool.eq_false_iff.mpr fun isStar => isWord ?_
      rw [beq_iff_eq.mp isStar]
      exact wordAfter_star
  simp only [wordBefore, Bool.and_eq_true, beq_iff_eq, Bool.not_eq_true', List.isEmpty_eq_false_iff,
    ne_eq, List.reverse_eq_nil_iff]
  constructor
  · rintro ⟨⟨⟨isStar, left⟩, -⟩, right⟩
    exact ⟨isStar, left, right⟩
  · rintro ⟨isStar, left, right⟩
    exact ⟨⟨⟨isStar, left⟩, single right⟩, right⟩

/-- What the audit keeps of the text behind it is the word with which that ends. -/
theorem productFrom_eq (before code : List Char) :
    productFrom (wordAfter before.reverse) (startsWith isWordChar before.reverse) code =
      (productsFrom before code).head?.map wordsBeside := by
  induction code generalizing before with
  | nil => rfl
  | cons c rest ih =>
    have ih := ih (before ++ [c])
    rw [List.reverse_append, List.reverse_singleton, List.singleton_append] at ih
    rw [productFrom]
    by_cases isWord : isWordChar c = true
    · have notStar : c ≠ '*' := by
        rintro rfl
        exact absurd isWord (by decide)
      rw [wordAfter_cons_word isWord, takeWhile_isWordChar, startsWith, isWord] at ih
      rw [if_pos isWord, productsFrom_of_ne notStar, ← ih]
      split
      · rfl
      · rfl
    · rw [if_neg isWord]
      by_cases blank : isBlank c = true
      · have notStar : c ≠ '*' := by
          rintro rfl
          exact absurd blank (by decide)
        rw [wordAfter_cons_blank blank, startsWith, Bool.eq_false_iff.mpr isWord] at ih
        rw [if_pos blank, productsFrom_of_ne notStar, ih]
      · rw [wordAfter_cons_other isWord blank, startsWith, Bool.eq_false_iff.mpr isWord] at ih
        rw [if_neg blank, productsFrom, ← wordAfter]
        simp only [star_between_words]
        split
        · rfl
        · exact ih

theorem firstProduct?_eq (code : List Char) :
    firstProduct? code = (products code).head?.map wordsBeside :=
  productFrom_eq [] code

end Products

/-! ## Products of amounts -/

/-- The word holds one of the words for amounts, in any letter case. -/
def NamesAmount (word : List Char) : Prop :=
  ∃ part, part <:+: word ∧ part.map Char.toLower ∈ amountWords

def OfAmounts (before after : List Char) : Prop :=
  NamesAmount (wordBefore before) ∨ NamesAmount (wordAfter after)

/-- One of the products of the code is one of amounts. -/
def HasAmountProduct (code : List Char) : Prop :=
  ∃ before after, IsProduct code before after ∧ OfAmounts before after

/-- The product of the code that no other one comes before is one of amounts. -/
def BeginsWithAmounts (code : List Char) : Prop :=
  ∃ before after, IsProduct code before after ∧ OfAmounts before after ∧
    ∀ before' after', IsProduct code before' after' → before.length ≤ before'.length

/-- The code mentions neither of the ways to check a width. -/
def Unchecked (code : List Char) : Prop :=
  ¬ "S(".toList <:+: code ∧ ¬ "mul_div".toList <:+: code

section Amounts

variable {code left right : List Char}

/-- No word for an amount holds the blank between two words. -/
theorem mentionsAmount_iff :
    mentionsAmount (left ++ ' ' :: right) = true ↔ NamesAmount left ∨ NamesAmount right := by
  have noBlank : ∀ w ∈ amountWords, ' ' ∉ w := by decide
  have inEither {w : List Char} (member : w ∈ amountWords) :
      occurs w ((left ++ ' ' :: right).map Char.toLower) = true ↔
        (∃ part, part <:+: left ∧ w = part.map Char.toLower) ∨
          ∃ part, part <:+: right ∧ w = part.map Char.toLower := by
    have notMem := noBlank w member
    rw [occurs_iff, List.map_append, List.map_cons, show ' '.toLower = ' ' from rfl,
      infix_append_cons_iff fun member => notMem (List.dropLast_subset _ member),
      infix_concat_iff_of_not_mem notMem, List.infix_map_iff, List.infix_map_iff]
  rw [mentionsAmount, List.any_eq_true]
  constructor
  · rintro ⟨w, member, occurs⟩
    obtain ⟨part, isPart, rfl⟩ | ⟨part, isPart, rfl⟩ := (inEither member).mp occurs
    · exact .inl ⟨part, isPart, member⟩
    · exact .inr ⟨part, isPart, member⟩
  · rintro (⟨part, isPart, member⟩ | ⟨part, isPart, member⟩)
    · exact ⟨_, member, (inEither member).mpr (.inl ⟨part, isPart, rfl⟩)⟩
    · exact ⟨_, member, (inEither member).mpr (.inr ⟨part, isPart, rfl⟩)⟩

theorem checksWidth_eq_false : checksWidth code = false ↔ Unchecked code := by
  rw [checksWidth, Bool.or_eq_false_iff, ← Bool.not_eq_true, ← Bool.not_eq_true, occurs_iff, occurs_iff]
  rfl

theorem beginsWithAmounts_iff : BeginsWithAmounts code ↔
    ∃ p, (products code).head? = some p ∧ OfAmounts p.1 p.2 := by
  simp only [head?_products, mem_products]
  constructor
  · rintro ⟨before, after, product, amounts, first⟩
    exact ⟨(before, after), ⟨product, fun q => first q.1 q.2⟩, amounts⟩
  · rintro ⟨⟨before, after⟩, ⟨product, first⟩, amounts⟩
    exact ⟨before, after, product, amounts, fun before' after' => first (before', after')⟩

theorem hasUncheckedProduct_iff :
    hasUncheckedProduct code = true ↔ Unchecked code ∧ BeginsWithAmounts code := by
  rw [hasUncheckedProduct, firstProduct?_eq, beginsWithAmounts_iff, ← checksWidth_eq_false]
  cases (products code).head? with
  | none => simp
  | some p => simp [wordsBeside, mentionsAmount_iff, OfAmounts]

theorem BeginsWithAmounts.hasAmountProduct (begins : BeginsWithAmounts code) :
    HasAmountProduct code := by
  obtain ⟨before, after, product, amounts, -⟩ := begins
  exact ⟨before, after, product, amounts⟩

/-- The only product of the code has no other one before it. -/
theorem HasAmountProduct.beginsWithAmounts (has : HasAmountProduct code)
    (single : (products code).length ≤ 1) : BeginsWithAmounts code := by
  obtain ⟨before, after, product, amounts⟩ := has
  have member : (before, after) ∈ products code := mem_products.mpr product
  rw [beginsWithAmounts_iff]
  cases all : products code with
  | nil =>
    rw [all] at member
    cases member
  | cons p rest =>
    rw [all] at member single
    obtain rfl : rest = [] := List.eq_nil_of_length_eq_zero (Nat.le_zero.mp (Nat.le_of_succ_le_succ single))
    rw [List.mem_singleton] at member
    subst member
    exact ⟨_, rfl, amounts⟩

end Amounts

/-! ## Lines with a product of amounts -/

def ProductReported (lines : List (List Char)) (l : CodeLine) : Prop :=
  ⟨l.number, l.line, .uncheckedProduct⟩ ∈ productFindings lines

/-- The audit should report the line for a product. -/
def ProductExpected (l : CodeLine) : Prop :=
  Unchecked l.code ∧ HasAmountProduct l.code

variable {lines : List (List Char)}

theorem mem_productFindings {f : Finding} : f ∈ productFindings lines ↔
    ∃ l ∈ codeLines lines, hasUncheckedProduct l.code = true ∧ f = ⟨l.number, l.line, .uncheckedProduct⟩ := by
  simp only [productFindings, List.mem_flatMap, CodeLine.mem_finding]

theorem productReported_iff {l : CodeLine} (member : l ∈ codeLines lines) :
    ProductReported lines l ↔ Unchecked l.code ∧ BeginsWithAmounts l.code := by
  have own : ∀ l : CodeLine, ∀ f ∈ l.finding .uncheckedProduct (hasUncheckedProduct l.code),
      f.number = l.number := by
    intro l f found
    obtain ⟨-, rfl⟩ := CodeLine.mem_finding.mp found
    rfl
  rw [← hasUncheckedProduct_iff, ProductReported, productFindings, mem_flatMap_findings member own rfl,
    CodeLine.mem_finding]
  exact and_iff_left rfl

theorem expected_of_productReported {l : CodeLine} (member : l ∈ codeLines lines)
    (reported : ProductReported lines l) : ProductExpected l := by
  obtain ⟨unchecked, begins⟩ := (productReported_iff member).mp reported
  exact ⟨unchecked, begins.hasAmountProduct⟩

def laterProductLine : List Char :=
  "x = a * b + fee * c".toList

theorem codeLines_laterProduct :
    codeLines [laterProductLine] = [⟨1, laterProductLine, laterProductLine⟩] := by decide

theorem laterProduct_expected : ProductExpected ⟨1, laterProductLine, laterProductLine⟩ := by
  refine ⟨checksWidth_eq_false.mp (by decide), "x = a * b + fee ".toList, " c".toList, ?_, .inl ?_⟩
  · exact ⟨by decide, by decide, by decide, by decide, by decide⟩
  · exact ⟨"fee".toList, occurs_iff.mp (by decide), by decide⟩

theorem laterProduct_not_reported :
    ¬ ProductReported [laterProductLine] ⟨1, laterProductLine, laterProductLine⟩ := by
  unfold ProductReported
  decide

/-- Every finding of a product is grave and about a line of code.  A line is reported exactly if it does
not check a width and begins with a product of amounts.  So every reported line has such a product, and
all lines with one are reported exactly if all of them begin with one.  Among the lines with so many
products at most this is so exactly if they have only one. -/
theorem products_found_iff (lines : List (List Char)) (most : Nat) :
    (∀ f ∈ productFindings lines, f.rule.severity = .high ∧
      ∃ l ∈ codeLines lines, f = ⟨l.number, l.line, .uncheckedProduct⟩) ∧
    (∀ l ∈ codeLines lines,
      ProductReported lines l ↔ Unchecked l.code ∧ BeginsWithAmounts l.code) ∧
    (∀ l ∈ codeLines lines, ProductReported lines l → ProductExpected l) ∧
    ((∀ l ∈ codeLines lines, ProductReported lines l ↔ ProductExpected l) ↔
      ∀ l ∈ codeLines lines, ProductExpected l → BeginsWithAmounts l.code) ∧
    ((∀ lines, ∀ l ∈ codeLines lines, (products l.code).length ≤ most →
        (ProductReported lines l ↔ ProductExpected l)) ↔
      most ≤ 1) := by
  refine ⟨fun f found => ?_, fun _ => productReported_iff, fun _ => expected_of_productReported,
    ⟨fun agree l member expected => ?_, fun begins l member =>
      ⟨expected_of_productReported member, fun expected => ?_⟩⟩,
    ⟨fun agree => Nat.not_lt.mp fun two => ?_,
      fun one lines l member few => ⟨expected_of_productReported member, fun expected => ?_⟩⟩⟩
  · obtain ⟨l, member, -, rfl⟩ := mem_productFindings.mp found
    exact ⟨rfl, l, member, rfl⟩
  · exact ((productReported_iff member).mp ((agree l member).mpr expected)).2
  · exact (productReported_iff member).mpr ⟨expected.1, begins l member expected⟩
  · -- of two products the second one can be the product of amounts
    have few : (products laterProductLine).length ≤ most := Nat.le_trans (by decide) two
    have member : ⟨1, laterProductLine, laterProductLine⟩ ∈ codeLines [laterProductLine] := by
      simp [codeLines_laterProduct]
    exact laterProduct_not_reported ((agree _ _ member few).mpr laterProduct_expected)
  · exact (productReported_iff member).mpr
      ⟨expected.1, expected.2.beginsWithAmounts (Nat.le_trans few one)⟩

/-- The product of amounts behind another product is passed over. -/
theorem later_product_passed_over :
    codeLines [laterProductLine] = [⟨1, laterProductLine, laterProductLine⟩] ∧
    ProductExpected ⟨1, laterProductLine, laterProductLine⟩ ∧
    ¬ ProductReported [laterProductLine] ⟨1, laterProductLine, laterProductLine⟩ :=
  ⟨codeLines_laterProduct, laterProduct_expected, laterProduct_not_reported⟩

end Audit

end PegPool
