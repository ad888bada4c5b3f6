import Mathlib.Algebra.Order.Ring.Int
import PegPool.Fees.Record

/-!
# Records of fee schedules

The bytes of a number are its digits in base 256, the lowest first, and eight of them hold every
amount.  A record is the bytes of the eight terms one after the other (`getElem?_pack`), so it is read
term by term: `unpack` and `pack` are inverse to each other on the byte strings of the size of a record
(`unpack_eq_ok`).
-/

namespace PegPool

/-! ## Numbers as bytes -/

theorem ofLittleEndian_littleEndian (width n : Nat) :
    ofLittleEndian (littleEndian width n) = n % 256 ^ width := by
  induction width generalizing n with
  | zero => rw [Nat.pow_zero, Nat.mod_one]; rfl
  | succ width inductionHypothesis =>
    rw [littleEndian, ofLittleEndian, inductionHypothesis, Nat.pow_succ', Nat.mod_mul,
      UInt8.toNat_ofNat_of_lt' (Nat.mod_lt n (by decide))]

theorem littleEndian_ofLittleEndian (bs : List UInt8) :
    littleEndian bs.length (ofLittleEndian bs) = bs := by
  induction bs with
  | nil => rfl
  | cons b bs inductionHypothesis =>
    have isByte : b.toNat < 256 := b.toNat_lt
    have low : (b.toNat + 256 * ofLittleEndian bs) % 256 = b.toNat := by omega
    have high : (b.toNat + 256 * ofLittleEndian bs) / 256 = ofLittleEndian bs := by omega
    rw [List.length_cons, ofLittleEndian, littleEndian, low, high, inductionHypothesis, UInt8.ofNat_toNat]

theorem getElem?_littleEndian {width k : Nat} (less : k < width) (n : Nat) :
    (littleEndian width n)[k]? = some (UInt8.ofNat (n / 256 ^ k % 256)) := by
  induction width generalizing n k with
  | zero => omega
  | succ width inductionHypothesis =>
    cases k with
    | zero => rw [Nat.pow_zero, Nat.div_one]; rfl
    | succ k =>
      rw [littleEndian, List.getElem?_cons_succ, inductionHypothesis (by omega), Nat.div_div_eq_div_mul,
        Nat.pow_succ']

namespace Amount

theorem ofBytes_append (a : Amount) (more : List UInt8) : ofBytes (a.toBytes ++ more) = a := by
  have whole : (a.toBytes ++ more).take 8 = a.toBytes := List.take_left' (length_littleEndian 8 a.val)
  have fits : a.val < 256 ^ 8 := a.lt
  rw [Amount.ext_iff, ofBytes]
  dsimp only
  rw [whole, toBytes, ofLittleEndian_littleEndian, Nat.mod_eq_of_lt fits]

theorem toBytes_ofBytes {bs : List UInt8} (enough : 8 ≤ bs.length) :
    (ofBytes bs).toBytes = bs.take 8 := by
  have size : (bs.take 8).length = 8 := List.length_take_of_le enough
  have written := littleEndian_ofLittleEndian (bs.take 8)
  rw [size] at written
  exact written

end Amount

/-! ## Records -/

/-- Where all blocks have one width, each place of a row of blocks belongs to one of them. -/
theorem getElem?_flatMap_of_width {α β : Type} {block : α → List β} {width : Nat}
    (wide : ∀ a, (block a).length = width) (as : List α) (i : Nat) {k : Nat} (less : k < width) :
    (as.flatMap block)[width * i + k]? = as[i]?.bind fun a => (block a)[k]? := by
  induction as generalizing i with
  | nil => rfl
  | cons a as inductionHypothesis =>
    rw [List.flatMap_cons]
    cases i with
    | zero => rw [List.getElem?_append_left (by rw [wide]; omega), Nat.mul_zero, Nat.zero_add]; rfl
    | succ i =>
      rw [List.getElem?_append_right (by rw [wide, Nat.mul_succ]; omega), wide, List.getElem?_cons_succ,
        ← inductionHypothesis]
      congr 1
      rw [Nat.mul_succ]
      omega

theorem drop_flatMap_of_width {α β : Type} {block : α → List β} {width : Nat}
    (wide : ∀ a, (block a).length = width) (as : List α) (i : Nat) :
    (as.flatMap block).drop (width * i) = (as.drop i).flatMap block := by
  induction i generalizing as with
  | zero => rfl
  | succ i inductionHypothesis =>
    cases as with
    | nil => rw [List.drop_nil, List.flatMap_nil, List.drop_nil]
    | cons a as =>
      rw [List.flatMap_cons, List.drop_succ_cons, ← inductionHypothesis, Nat.mul_succ, Nat.add_comm,
        ← List.drop_drop, List.drop_left' (wide a)]

namespace Fees

def termBytes (field : String × Amount) : List UInt8 :=
  field.2.toBytes

theorem length_termBytes (field : String × Amount) : (termBytes field).length = 8 :=
  length_littleEndian 8 field.2.val

theorem pack_eq (f : Fees) : f.pack = f.fields.flatMap termBytes := rfl

theorem length_pack (f : Fees) : f.pack.length = recordSize := by
  simp only [pack_eq, fields, List.flatMap_cons, List.flatMap_nil, List.length_append, length_termBytes,
    List.length_nil]
  rfl

/-- A place of a record holds a byte of one of the eight terms. -/
theorem getElem?_pack (f : Fees) (i : Nat) {k : Nat} (byte : k < 8) :
    f.pack[8 * i + k]? =
      f.fields[i]?.map fun field => UInt8.ofNat (field.2.val / 256 ^ k % 256) := by
  rw [pack_eq, getElem?_flatMap_of_width length_termBytes _ _ byte]
  cases f.fields[i]? with
  | none => rfl
  | some field => exact getElem?_littleEndian byte field.2.val

theorem unpack_pack (f : Fees) : unpack f.pack = .ok f := by
  have term (i : Nat) : f.pack.drop (8 * i) = (f.fields.drop i).flatMap termBytes :=
    drop_flatMap_of_width length_termBytes f.fields i
  rw [unpack, if_pos f.length_pack]
  dsimp only
  simp only [term]
  simp only [fields, List.drop_succ_cons, List.drop_zero, List.flatMap_cons, termBytes,
    Amount.ofBytes_append]

/-- The terms of a record are read off its bytes, eight for each. -/
theorem fields_of_unpack {bs : List UInt8} {f : Fees} (unpacked : unpack bs = .ok f) {i : Nat}
    (term : i < 8) : ∃ name, f.fields[i]? = some (name, Amount.ofBytes (bs.drop (8 * i))) := by
  unfold unpack at unpacked
  split at unpacked
  · cases unpacked
    match i, term with
    | 0, _ | 1, _ | 2, _ | 3, _ | 4, _ | 5, _ | 6, _ | 7, _ => exact ⟨_, rfl⟩
  · cases unpacked

theorem pack_of_unpack {bs : List UInt8} {f : Fees} (unpacked : unpack bs = .ok f) : f.pack = bs := by
  have size : bs.length = recordSize := by
    unfold unpack at unpacked
    split at unpacked
    · assumption
    · cases unpacked
  have size' : bs.length = 64 := size
  have packSize : f.pack.length = 64 := f.length_pack
  refine List.ext_getElem? fun n => ?_
  by_cases inside : n < 64
  · obtain ⟨name, isTerm⟩ := fields_of_unpack unpacked (show n / 8 < 8 by omega)
    have byte : n % 8 < 8 := Nat.mod_lt n (by decide)
    rw [← Nat.div_add_mod n 8, pack_eq, getElem?_flatMap_of_width length_termBytes _ _ byte, isTerm,
      Option.bind_some, termBytes, Amount.toBytes_ofBytes (by rw [List.length_drop]; omega),
      List.getElem?_take_of_lt byte, List.getElem?_drop]
  · rw [List.getElem?_eq_none (by omega), List.getElem?_eq_none (by omega)]

/-- Records and schedules are the same: a schedule is unpacked from its record and from nothing else. -/
theorem unpack_eq_ok {bs : List UInt8} {f : Fees} : unpack bs = .ok f ↔ bs = f.pack := by
  constructor
  · intro unpacked
    exact (pack_of_unpack unpacked).symm
  · rintro rfl
    exact unpack_pack f

/-- Every byte string of the size of a record is one, and no other is. -/
theorem unpack_of_length (bs : List UInt8) :
    (bs.length = recordSize → ∃ f, unpack bs = .ok f) ∧
      (bs.length ≠ recordSize → unpack bs = .error ⟨bs.length⟩) :=
  ⟨fun size => ⟨_, if_pos size⟩, fun size => if_neg size⟩

end Fees

end PegPool
