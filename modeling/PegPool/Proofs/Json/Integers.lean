import Mathlib.Data.List.TakeWhile
import PegPool.Json.Reader
import PegPool.Proofs.Word.Caught
import PegPool.Text.Numeral

/-!
# Integers that are read

An integer in a JSON text has at most 4300 digits if the text is read (`writable_of_read?`), and so has
one in a string (`Text.isWritable_of_readPlainNumeral`).  Both can be written again.
-/

namespace PegPool

namespace Text

variable {cs ds : List Char} {z : Int}

theorem foldl_digits_lt (digits : ∀ c ∈ ds, c.isDigit = true) (n : Nat) :
    ds.foldl (fun n c => 10 * n + (c.toNat - '0'.toNat)) n < (n + 1) * 10 ^ ds.length := by
  induction ds generalizing n with
  | nil => simp
  | cons c rest inductionHypothesis =>
    obtain ⟨-, most⟩ := Char.isDigit_iff_toNat.mp (digits c List.mem_cons_self)
    have digit : c.toNat - '0'.toNat ≤ 9 := Nat.sub_le_sub_right most _
    have next : 10 * n + (c.toNat - '0'.toNat) + 1 ≤ (n + 1) * 10 := by omega
    calc
      rest.foldl _ (10 * n + (c.toNat - '0'.toNat)) <
          (10 * n + (c.toNat - '0'.toNat) + 1) * 10 ^ rest.length :=
        inductionHypothesis (fun d member => digits d (List.mem_cons_of_mem c member)) _
      _ ≤ (n + 1) * 10 * 10 ^ rest.length := Nat.mul_le_mul_right _ next
      _ = (n + 1) * 10 ^ (rest.length + 1) := by rw [Nat.pow_succ, Nat.mul_assoc, Nat.mul_comm 10]

theorem pow_le_writingLimit {size : Nat} (short : size ≤ maxNumeralDigits) : 10 ^ size ≤ writingLimit := by
  unfold writingLimit
  generalize maxNumeralDigits = most at *
  exact Nat.pow_le_pow_right (by decide) short

/-- A row of at most 4300 digits writes a number that can be written. -/
theorem isWritable_of_digits (digits : ∀ c ∈ ds, c.isDigit = true)
    (short : ds.length ≤ maxNumeralDigits) (shows : z.natAbs = ofAsciiDigits ds) : isWritable z = true := by
  have bounded := foldl_digits_lt digits 0
  rw [Nat.zero_add, Nat.one_mul] at bounded
  rw [isWritable_iff, shows]
  exact Nat.lt_of_lt_of_le bounded (pow_le_writingLimit short)

theorem isDigit_of_mem_takeWhile : ∀ c ∈ cs.takeWhile Char.isDigit, c.isDigit = true :=
  fun _ member => List.mem_takeWhile_imp member

theorem isWritable_of_readWrittenOut (isRead : readWrittenOut cs = .ok z) : isWritable z = true := by
  unfold readWrittenOut at isRead
  extract_lets negative body ds size value at isRead
  have digits : ∀ c ∈ ds, c.isDigit = true := isDigit_of_mem_takeWhile
  have isSize : size = ds.length + negative.toNat := rfl
  have isValue : value = ofAsciiDigits ds := rfl
  clear_value value size ds
  split at isRead
  · cases isRead
  · split at isRead
    · cases isRead
      exact isWritable_of_lt (by decide)
    · cases isRead
  · split at isRead
    · cases isRead
    · split at isRead
      · cases isRead
      · cases isRead
        refine isWritable_of_digits digits (by omega) ?_
        split <;> omega

theorem isWritable_of_readPlainNumeral (isRead : readPlainNumeral cs = .ok z) : isWritable z = true := by
  unfold readPlainNumeral at isRead
  split at isRead
  · split at isRead
    case h_1 tidied =>
      cases isRead
      obtain ⟨text, -, isRead⟩ := Option.map_eq_some_iff.mp tidied
      exact isWritable_of_readWrittenOut isRead
    case h_2 => cases isRead
  · exact isWritable_of_readWrittenOut isRead

end Text

namespace Json

/-- Every integer in the value can be written. -/
inductive Writable : Json → Prop where
  | null : Writable .null
  | bool (value : Bool) : Writable (.bool value)
  | int {z : Int} (writable : Text.isWritable z = true) : Writable (.int z)
  | float (x : Binary64) : Writable (.float x)
  | str (s : JsonString) : Writable (.str s)
  | arr {items : List Json} (each : ∀ v ∈ items, Writable v) : Writable (.arr items)
  | obj {members : Members} (each : ∀ m ∈ members, Writable m.2) : Writable (.obj members)

variable {cs rest : List Char} {v : Json}

theorem writable_of_readWord? {words : List (List Char × Json)} (each : ∀ w ∈ words, Writable w.2)
    (isRead : readWord? cs words = some (v, rest)) : Writable v := by
  induction words with
  | nil => cases isRead
  | cons word more inductionHypothesis =>
    rw [readWord?] at isRead
    split at isRead
    · cases isRead
      exact each word List.mem_cons_self
    · exact inductionHypothesis (fun w member => each w (List.mem_cons_of_mem word member)) isRead

theorem writable_words : ∀ w ∈ words, Writable w.2 := by
  simp only [words, List.forall_mem_cons]
  exact ⟨.null, .bool true, .bool false, .float _, .float _, by simp⟩

theorem digits_of_readWhole {whole : List Char} (isRead : readWhole cs = some (whole, rest)) :
    ∀ c ∈ whole, c.isDigit = true := by
  unfold readWhole at isRead
  split at isRead
  · cases isRead
    intro c member
    rw [List.mem_singleton.mp member]
    rfl
  · split at isRead
    · cases isRead
      exact Text.isDigit_of_mem_takeWhile
    · cases isRead
  · cases isRead

theorem writable_of_readUnsigned {negative : Bool}
    (isRead : readUnsigned negative cs = .ok (v, rest)) : Writable v := by
  unfold readUnsigned at isRead
  split at isRead
  case h_1 => cases isRead
  case h_2 whole behind isWhole =>
    dsimp only at isRead
    split at isRead
    · split at isRead
      case isTrue => cases isRead
      case isFalse short =>
        cases isRead
        refine .int (Text.isWritable_of_digits (digits_of_readWhole isWhole) (Nat.le_of_not_lt short) ?_)
        change _ = decimalValue whole
        split <;> omega
    · cases isRead
      exact .float _

theorem writable_of_readNumber (isRead : readNumber cs = .ok (v, rest)) : Writable v := by
  unfold readNumber at isRead
  split at isRead
  · split at isRead
    · cases isRead
      exact .float _
    · exact writable_of_readUnsigned isRead
  · exact writable_of_readUnsigned isRead

theorem writable_insertMember {key : JsonString} {members : Members} (writable : Writable v)
    (each : ∀ m ∈ members, Writable m.2) : ∀ m ∈ insertMember key v members, Writable m.2 := by
  induction members with
  | nil => simpa [insertMember] using writable
  | cons member more inductionHypothesis =>
    obtain ⟨first, others⟩ := List.forall_mem_cons.mp each
    unfold insertMember
    split
    · exact List.forall_mem_cons.mpr ⟨writable, others⟩
    · exact List.forall_mem_cons.mpr ⟨first, inductionHypothesis others⟩

theorem writable_ofMembers {members : Members} (each : ∀ m ∈ members, Writable m.2) :
    Writable (ofMembers members) := by
  have inserted (acc : Members) (before : ∀ m ∈ acc, Writable m.2) :
      ∀ m ∈ members.foldl (fun acc m => insertMember m.1 m.2 acc) acc, Writable m.2 := by
    induction members generalizing acc with
    | nil => exact before
    | cons member more inductionHypothesis =>
      obtain ⟨first, others⟩ := List.forall_mem_cons.mp each
      exact inductionHypothesis others _ (writable_insertMember first before)
  exact .obj (inserted [] (by simp))

theorem writable_find? {key : JsonString} {members : Members} (each : ∀ m ∈ members, Writable m.2)
    (found : find? key members = some v) : Writable v := by
  induction members with
  | nil => cases found
  | cons member more inductionHypothesis =>
    obtain ⟨first, others⟩ := List.forall_mem_cons.mp each
    rw [find?] at found
    split at found
    · cases found
      exact first
    · exact inductionHypothesis others found

/-- The three readers bring only integers that can be written, if those before them did. -/
theorem writable_of_fuel (fuel : Nat) :
    (∀ cs v rest, readValue fuel cs = .ok (v, rest) → Writable v) ∧
    (∀ acc cs v rest, (∀ u ∈ acc, Writable u) → readItems fuel acc cs = .ok (v, rest) → Writable v) ∧
    ∀ acc cs v rest, (∀ m ∈ acc, Writable m.2) → readMembers fuel acc cs = .ok (v, rest) →
      Writable v := by
  induction fuel with
  | zero =>
    refine ⟨?_, ?_, ?_⟩
    · intro cs v rest isRead
      cases isRead
    · intro acc cs v rest each isRead
      cases isRead
    · intro acc cs v rest each isRead
      cases isRead
  | succ fuel inductionHypothesis =>
    obtain ⟨value, items, members⟩ := inductionHypothesis
    refine ⟨?_, ?_, ?_⟩
    · intro cs v rest isRead
      unfold readValue at isRead
      split at isRead
      · obtain ⟨⟨s, behind⟩, -, isString⟩ := bind_eq_ok.mp isRead
        cases isString
        exact .str s
      · split at isRead
        · cases isRead
          exact .arr (by simp)
        · exact items [] _ _ _ (by simp) isRead
      · split at isRead
        · cases isRead
          exact .obj (by simp)
        · exact members [] _ _ _ (by simp) isRead
      · split at isRead
        case h_1 isWord =>
          cases isRead
          exact writable_of_readWord? writable_words isWord
        case h_2 => exact writable_of_readNumber isRead
    · intro acc cs v rest each isRead
      unfold readItems at isRead
      obtain ⟨⟨item, behind⟩, isItem, isRead⟩ := bind_eq_ok.mp isRead
      have each' := List.forall_mem_cons.mpr ⟨value _ _ _ isItem, each⟩
      dsimp only at isRead
      split at isRead
      · exact items _ _ _ _ each' isRead
      · cases isRead
        exact .arr fun u member => each' u (List.mem_reverse.mp member)
      · cases isRead
    · intro acc cs v rest each isRead
      unfold readMembers at isRead
      split at isRead
      · obtain ⟨⟨key, behind⟩, -, isRead⟩ := bind_eq_ok.mp isRead
        dsimp only at isRead
        split at isRead
        · obtain ⟨⟨item, behind⟩, isItem, isRead⟩ := bind_eq_ok.mp isRead
          have each' : ∀ m ∈ (key, item) :: acc, Writable m.2 :=
            List.forall_mem_cons.mpr ⟨value _ _ _ isItem, each⟩
          dsimp only at isRead
          split at isRead
          · exact members _ _ _ _ each' isRead
          · cases isRead
            exact writable_ofMembers fun m member => each' m (List.mem_reverse.mp member)
          · cases isRead
        · cases isRead
      · cases isRead

theorem writable_of_read? {text : String} (isRead : read? text = .ok v) : Writable v := by
  unfold read? at isRead
  dsimp only at isRead
  split at isRead
  · cases isRead
  · split at isRead
    case isTrue isValue _ =>
      cases isRead
      exact (writable_of_fuel _).1 _ _ _ isValue
    case isFalse => cases isRead

end Json

end PegPool
