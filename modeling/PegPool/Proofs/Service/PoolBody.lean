import PegPool.Proofs.Outcome
import PegPool.Proofs.Service.Reading

/-!
# Bodies that describe a pool

A body that was read keeps to the bounds of its fields (`RampBody.Valid`, `FeesBody.Valid`), so there
is a pool that it describes (`PoolBody.Valid.exists_pool`), and that pool is made of it
(`PoolBody.Describes.toPool`).
-/

namespace PegPool

namespace Hex

theorem exists_decode {n : Nat} {ds : List Char} (even : ds.length = 2 * n)
    (digits : ∀ c ∈ ds, (digit? c).isSome = true) :
    ∃ bytes, decode? ds = some bytes ∧ bytes.length = n := by
  induction n generalizing ds with
  | zero =>
    obtain rfl : ds = [] := List.eq_nil_of_length_eq_zero even
    exact ⟨[], rfl, rfl⟩
  | succ n inductionHypothesis =>
    match ds with
    | [] | [_] =>
      simp only [List.length_nil, List.length_cons] at even
      omega
    | h :: l :: rest =>
      simp only [List.length_cons] at even
      have rest' : rest.length = 2 * n := by omega
      obtain ⟨high, isHigh⟩ := Option.isSome_iff_exists.mp (digits h (by simp))
      obtain ⟨low, isLow⟩ := Option.isSome_iff_exists.mp (digits l (by simp))
      obtain ⟨bytes, decoded, size⟩ :=
        inductionHypothesis rest' fun c member => digits c (by simp [member])
      refine ⟨UInt8.ofNat (high * 16 + low) :: bytes, ?_, by rw [List.length_cons, size]⟩
      rw [decode?, isHigh, isLow, decoded]
      rfl

end Hex

namespace Service

open Checked

variable {p : Place} {j : Json}

/-! ## The coefficient -/

namespace RampBody

/-- The coefficients are within the bounds of a request, and the course does not begin before the
time zero or end before it begins. -/
structure Valid (b : RampBody) : Prop where
  initial : leastAmp ≤ b.initial ∧ b.initial ≤ mostAmp
  target : leastAmp ≤ b.target ∧ b.target ≤ mostAmp
  start : 0 ≤ b.start
  stop : b.start ≤ b.stop

theorem valid_of_read {b : RampBody} (good : read p j = .good b) : b.Valid := by
  obtain ⟨r, good⟩ := body_good good
  obtain ⟨b, fields, ordered⟩ := andThen_eq_good.mp good
  split at ordered
  · cases ordered
  · cases ordered
    simp only [readFields, seq_eq_good, map_eq_good] at fields
    obtain ⟨_, stop, ⟨_, start, ⟨_, target, ⟨initial, readInitial, rfl⟩, readTarget, rfl⟩, readStart, rfl⟩,
      readStop, rfl⟩ := fields
    obtain ⟨_, _, boundedInitial⟩ := required_good readInitial
    obtain ⟨_, _, boundedTarget⟩ := required_good readTarget
    refine ⟨integerBetween_good boundedInitial, integerBetween_good boundedTarget, ?_, by omega⟩
    obtain rfl | ⟨_, _, given⟩ := optional_good readStart
    · exact Int.le_refl 0
    · exact integerFrom_good given

/-- An object that has the four fields, each in either spelling, is read. -/
theorem Valid.read_of_found {b : RampBody} (valid : b.Valid) {members : Json.Members} {i t s e : String}
    (initial : Record.find? ⟨p, members⟩ initialKey = some (i, .int b.initial))
    (target : Record.find? ⟨p, members⟩ targetKey = some (t, .int b.target))
    (start : Record.find? ⟨p, members⟩ startKey = some (s, .int b.start))
    (stop : Record.find? ⟨p, members⟩ stopKey = some (e, .int b.stop)) :
    read p (.obj members) = .good b := by
  obtain ⟨⟨initialLeast, initialMost⟩, ⟨targetLeast, targetMost⟩, startFrom, forward⟩ := valid
  have stopFrom : 0 ≤ b.stop := by omega
  refine andThen_eq_good.mpr ⟨b, ?_, if_neg (by omega)⟩
  refine good_seq (good_seq (good_seq (good_map RampBody.mk ?_) ?_) ?_) ?_
  · exact (reads_integerBetween initialLeast initialMost).required initial
  · exact (reads_integerBetween targetLeast targetMost).required target
  · exact (reads_integerFrom startFrom).optional start
  · exact (reads_integerFrom stopFrom).optional stop

theorem Valid.reads_toJson {b : RampBody} (valid : b.Valid) : Reads read b.toJson b :=
  fun _ => valid.read_of_found rfl rfl rfl rfl

/-- The ramp has the coefficients and the times of the body. -/
structure Describes (b : RampBody) (ramp : Ramp) : Prop where
  initial : (ramp.initial : Int) = b.initial
  target : (ramp.target : Int) = b.target
  start : ramp.start = b.start
  stop : ramp.stop = b.stop

theorem Valid.exists_ramp {b : RampBody} (valid : b.Valid) : ∃ ramp, b.Describes ramp := by
  obtain ⟨⟨initialLeast, -⟩, ⟨targetLeast, -⟩, -, stop⟩ := valid
  unfold leastAmp at initialLeast targetLeast
  exact ⟨⟨b.initial.toNat, b.target.toNat, b.start, b.stop, stop⟩, Int.toNat_of_nonneg (by omega),
    Int.toNat_of_nonneg (by omega), rfl, rfl⟩

theorem Describes.toRamp {b : RampBody} {ramp : Ramp} (describes : b.Describes ramp) :
    b.toRamp = .ok ramp := by
  obtain ⟨initial, target, start, stop⟩ := b
  obtain ⟨rfl, rfl, rfl, rfl⟩ := describes
  have nonneg : ¬((ramp.initial : Int) < 0 ∨ (ramp.target : Int) < 0) := by omega
  rw [RampBody.toRamp, Ramp.make, if_neg nonneg, dif_pos ramp.start_le_stop]
  rfl

end RampBody

/-! ## Fees -/

namespace FeesBody

/-- A record that is given as text has the size of one, and is made of digits. -/
def Valid : FeesBody → Prop
  | fields _ => True
  | packed text => text.length = packedSize ∧ isHexText text.toList = true

theorem valid_of_packedText {text : String} (good : packedText p j = .good text) :
    (packed text).Valid := by
  obtain ⟨_, -, tested⟩ := andThen_eq_good.mp good
  split at tested
  · cases tested
  · split at tested
    · cases tested
    · split at tested
      · cases tested
        exact ⟨by omega, by assumption⟩
      · cases tested

theorem valid_of_read {b : FeesBody} (good : read p j = .good b) : b.Valid := by
  unfold read at good
  split at good
  · cases good
    exact trivial
  · split at good
    · rename_i readText
      cases good
      obtain ⟨r, readField⟩ := closedBody_good readText
      obtain ⟨_, _, readValue⟩ := required_good readField
      exact valid_of_packedText readValue
    · cases good

/-- The schedule that a body describes, by its fields or by the bytes of its record. -/
inductive Describes : FeesBody → Fees → Prop where
  | fields (fees : Fees) : Describes (.fields fees) fees
  | packed {text : String} {bytes : List UInt8} {fees : Fees}
      (decoded : Hex.decode? (text.toList.drop 2) = some bytes) (unpacked : Fees.unpack bytes = .ok fees) :
      Describes (.packed text) fees

theorem Valid.exists_fees {b : FeesBody} (valid : b.Valid) : ∃ fees, b.Describes fees := by
  cases b with
  | fields fees => exact ⟨fees, .fields fees⟩
  | packed text =>
    obtain ⟨size, isHex⟩ := valid
    unfold isHexText at isHex
    split at isHex
    · rename_i digits marked
      have even : digits.length = 2 * Fees.recordSize := by
        rw [String.length, marked] at size
        simp only [List.length_cons, packedSize] at size
        omega
      obtain ⟨bytes, decoded, whole⟩ := Hex.exists_decode even (by simpa using isHex)
      have behindMark : text.toList.drop 2 = digits := by
        rw [marked]
        rfl
      rw [← behindMark] at decoded
      exact ⟨_, .packed decoded (if_pos whole)⟩
    · cases isHex

theorem Describes.toFees {b : FeesBody} {fees : Fees} (describes : b.Describes fees) :
    b.toFees = .ok fees := by
  cases describes with
  | fields => rfl
  | packed decoded unpacked =>
    rw [FeesBody.toFees, unpackText, decoded]
    exact unpacked

end FeesBody

/-! ## The whole pool -/

namespace PoolBody

/-- The body keeps to the bounds of its fields. -/
structure Valid (b : PoolBody) : Prop where
  ramp : b.ramp.Valid
  fees : b.fees.Valid

theorem valid_of_read {b : PoolBody} (good : read p j = .good b) : b.Valid := by
  obtain ⟨r, fields⟩ := body_good good
  simp only [seq_eq_good, map_eq_good] at fields
  obtain ⟨_, reserves, ⟨_, fees, ⟨ramp, readRamp, rfl⟩, readFees, rfl⟩, -, rfl⟩ := fields
  obtain ⟨_, _, givenRamp⟩ := required_good readRamp
  obtain ⟨_, _, givenFees⟩ := required_good readFees
  exact ⟨RampBody.valid_of_read givenRamp, FeesBody.valid_of_read givenFees⟩

/-- The pool has the coefficients and times, the fees and the reserves of the body. -/
structure Describes (b : PoolBody) (pool : Pool) : Prop where
  ramp : b.ramp.Describes pool.ramp
  fees : b.fees.Describes pool.fees
  reserves : pool.reserves = b.reserves

theorem Valid.exists_pool {b : PoolBody} (valid : b.Valid) : ∃ pool, b.Describes pool := by
  obtain ⟨ramp, isRamp⟩ := valid.ramp.exists_ramp
  obtain ⟨fees, isFees⟩ := valid.fees.exists_fees
  exact ⟨⟨ramp, fees, b.reserves⟩, isRamp, isFees, rfl⟩

theorem Describes.toPool {b : PoolBody} {pool : Pool} (describes : b.Describes pool) :
    b.toPool = .ok pool := by
  rw [PoolBody.toPool, describes.ramp.toRamp, describes.fees.toFees, ← describes.reserves]
  rfl

end PoolBody

end Service

end PegPool
