import PegPool.Fees

/-!
# The stored form of a fee schedule

A schedule is stored as 64 bytes: its eight terms in order, each in eight bytes with the lowest
first.  `Fees.unpack` reads every record of that length and refuses every other.  Records travel as
hexadecimal text.
-/

namespace PegPool

/-- The lowest `width` bytes of a number, the lowest first. -/
def littleEndian : Nat → Nat → List UInt8
  | 0, _ => []
  | width + 1, n => UInt8.ofNat (n % 256) :: littleEndian width (n / 256)

def ofLittleEndian : List UInt8 → Nat
  | [] => 0
  | b :: bs => b.toNat + 256 * ofLittleEndian bs

theorem length_littleEndian (width n : Nat) : (littleEndian width n).length = width := by
  induction width generalizing n with
  | zero => rfl
  | succ width ih => simp [littleEndian, ih]

theorem ofLittleEndian_lt (bs : List UInt8) : ofLittleEndian bs < Nat.pow 256 bs.length := by
  induction bs with
  | nil => exact Nat.zero_lt_one
  | cons b bs ih =>
    have hb : b.toNat < 256 := UInt8.toNat_lt b
    simp only [ofLittleEndian, List.length_cons, Nat.pow, Nat.mul_eq]
    omega

def Amount.ofBytes (bs : List UInt8) : Amount :=
  ⟨ofLittleEndian (bs.take 8), by
    have h := ofLittleEndian_lt (bs.take 8)
    have hl : (bs.take 8).length ≤ 8 := by
      rw [List.length_take]
      exact Nat.min_le_left 8 bs.length
    exact Nat.lt_of_lt_of_le h (Nat.le_trans (Nat.pow_le_pow_right (by decide) hl) (by decide))⟩

def Amount.toBytes (a : Amount) : List UInt8 :=
  littleEndian 8 a.val

namespace Fees

def recordSize : Nat := 64

def pack (f : Fees) : List UInt8 :=
  f.fields.flatMap fun (_, amount) => amount.toBytes

/-- Bytes that are no record, by how many there are. -/
structure RecordError where
  size : Nat
deriving DecidableEq, Repr

def RecordError.message (e : RecordError) : String :=
  s!"Fees record must be {recordSize} bytes, got {e.size}"

def unpack (bs : List UInt8) : Except RecordError Fees :=
  if bs.length = recordSize then
    let amount (i : Nat) := Amount.ofBytes (bs.drop (8 * i))
    .ok ⟨⟨amount 0, amount 1⟩, ⟨amount 2, amount 3⟩, ⟨amount 4, amount 5⟩, ⟨amount 6, amount 7⟩⟩
  else .error ⟨bs.length⟩

end Fees

end PegPool
