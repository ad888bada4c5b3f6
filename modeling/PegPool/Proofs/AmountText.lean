import PegPool.Proofs.Quote
import PegPool.Proofs.Text.Grammar

/-!
# Which JSON values are amounts

A JSON value denotes an integer if it is one or a string that writes one (`Json.Denotes`).  The values
that denote an integer of 64 bits are the amounts (`Amount.ofJson_eq_ok`), and each is written back as
the canonical text of its integer, in which no trace of the value is left.
-/

namespace PegPool

/-- The JSON value is an integer or a string that writes one. -/
inductive Json.Denotes : Json → Int → Prop where
  | integer (z : Int) : Denotes (.int z) z
  | numeral {s : String} {z : Int} (writes : Text.Numeral s.toList z) : Denotes (.str (.plain s)) z

theorem Json.Denotes.unique {j : Json} {y z : Int} (first : j.Denotes y) (second : j.Denotes z) :
    y = z := by
  cases first with
  | integer =>
    cases second
    rfl
  | numeral writes =>
    cases second with
    | numeral alsoWrites => exact writes.unique alsoWrites

namespace Amount

theorem ofShown_eq_ok {shown : String} {z : Int} {a : Amount} :
    ofShown shown z = .ok a ↔ (a.val : Int) = z := by
  unfold ofShown
  split
  case isTrue negative =>
    simp only [reduceCtorEq, false_iff]
    omega
  case isFalse nonneg =>
    have stored : ofNat? z.toNat = some a ↔ (a.val : Int) = z := by
      rw [ofNat?_eq_some]
      omega
    rw [← stored]
    cases ofNat? z.toNat with
    | none => simp only [reduceCtorEq]
    | some b => rw [Except.ok.injEq, Option.some_inj]

theorem ofJson_eq_ok {j : Json} {a : Amount} : ofJson j = .ok a ↔ j.Denotes a.val := by
  constructor
  · intro read
    unfold ofJson at read
    split at read
    case h_1 z =>
      rw [ofShown_eq_ok] at read
      rw [read]
      exact .integer z
    case h_2 s =>
      split at read
      case h_1 z numeral =>
        rw [ofShown_eq_ok] at read
        rw [read]
        exact .numeral (.of_readNumeral numeral)
      case h_2 => cases read
    case h_3 => cases read
    case h_4 => cases read
  · intro denotes
    generalize denoted : (a.val : Int) = z at denotes
    cases denotes with
    | integer => exact ofShown_eq_ok.mpr denoted
    | numeral writes =>
      rw [ofJson, writes.readNumeral_eq]
      exact ofShown_eq_ok.mpr denoted

theorem writes_decimal (a : Amount) : Text.Numeral a.decimal.toList a.val :=
  .of_readNumeral (Text.readNumeral_toString a.lt)

theorem denotes_toJson (a : Amount) : a.toJson.Denotes a.val :=
  .numeral a.writes_decimal

theorem decimal_inj {a b : Amount} : a.decimal = b.decimal ↔ a.val = b.val := by
  constructor
  · intro same
    have writes := a.writes_decimal
    rw [same] at writes
    exact Int.natCast_inj.mp (writes.unique b.writes_decimal)
  · intro same
    rw [decimal, same, decimal]

/-- The JSON values that are accepted as amounts are those that denote a number of 64 bits, and it is
this number that they are read as.  The text that an amount is written in is canonical, is read as the
amount again, here and by whoever reads a numeral, and is the only canonical text of the amount.  So two
values are written alike if and only if they denote the same number. -/
theorem accepts_numbers_and_writes_them_alike :
    (∀ j : Json, (∃ a, ofJson j = .ok a) ↔ ∃ z, j.Denotes z ∧ 0 ≤ z ∧ z ≤ 2 ^ 64 - 1) ∧
      (∀ (j : Json) (a : Amount), ofJson j = .ok a → j.Denotes a.val) ∧
        (∀ a : Amount, Text.Canonical a.decimal.toList ∧ Text.Numeral a.decimal.toList a.val ∧
          ofJson a.toJson = .ok a ∧ Text.readNumeral a.decimal.toList = .ok a.val) ∧
          (∀ (s : String) (a : Amount), Text.Canonical s.toList → ofJson (.str s) = .ok a →
            a.decimal = s) ∧
            ∀ (j k : Json) (a b : Amount) (y z : Int), ofJson j = .ok a → ofJson k = .ok b →
              j.Denotes y → k.Denotes z → (a.decimal = b.decimal ↔ y = z) := by
  refine ⟨?_, fun j a => ofJson_eq_ok.mp, ?_, ?_, ?_⟩
  · intro j
    constructor
    · rintro ⟨a, read⟩
      have fits := a.lt
      exact ⟨a.val, ofJson_eq_ok.mp read, by omega, by omega⟩
    · rintro ⟨z, denotes, nonneg, fits⟩
      have isNat : (z.toNat : Int) = z := Int.toNat_of_nonneg nonneg
      refine ⟨⟨z.toNat, by omega⟩, ofJson_eq_ok.mpr ?_⟩
      rw [isNat]
      exact denotes
  · intro a
    exact ⟨Text.canonical_toString a.val, a.writes_decimal, ofJson_eq_ok.mpr a.denotes_toJson,
      Text.readNumeral_toString a.lt⟩
  · intro s a canonical read
    cases hasWritten : ofJson_eq_ok.mp read with
    | numeral writes => exact (canonical.eq_toString writes).symm
  · intro j k a b y z readJ readK denotesY denotesZ
    rw [decimal_inj, denotesY.unique (ofJson_eq_ok.mp readJ), denotesZ.unique (ofJson_eq_ok.mp readK),
      Int.natCast_inj]

/-- Seventy between blanks, with a plus, a zero in front and the digits of two scripts. -/
def ornateSeventy : String :=
  "\u00a0+\u0660_\u06670\u2003"

theorem accepts_ornateSeventy :
    ofJson (.str ornateSeventy) = .ok ⟨70, by decide⟩ ∧ decimal ⟨70, by decide⟩ = "70" ∧
      decimal ⟨70, by decide⟩ ≠ decimal ⟨71, by decide⟩ := by
  obtain ⟨-, denoted, -, canonical, alike⟩ := accepts_numbers_and_writes_them_alike
  have seventy : ofJson (.str ornateSeventy) = .ok ⟨70, by decide⟩ := by decide +kernel
  have plain : ofJson (.str "70") = .ok ⟨70, by decide⟩ := rfl
  have other : ofJson (.int 71) = .ok ⟨71, by decide⟩ := rfl
  have isCanonical : Text.Canonical "70".toList := Text.canonical_toString 70
  have differ := alike _ _ _ _ _ _ seventy other (denoted _ _ seventy) (.integer 71)
  exact ⟨seventy, canonical "70" _ isCanonical plain, differ.not.mpr (by decide)⟩

end Amount

end PegPool
