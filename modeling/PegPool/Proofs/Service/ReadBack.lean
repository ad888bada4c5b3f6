import PegPool.Proofs.Service.Faithful

/-!
# Bodies are read back from their written form

A body that was read is read again, as the same body, from what is written of it.  What the pool makes
of a body is therefore the same before and after (`Faithful.converts`), and the checks of a body are
strict enough for the pool to make something of it, whatever checks of its own it has.  The other way
round, the bodies that are made of a ramp and of reserves are accepted (`bodies_read_back`).
-/

namespace PegPool

namespace Service

/-! ## What is made of a body -/

/-- Whatever is read can be converted, to a value that is right for it, and is converted to the same
value after it has been written and read again. -/
def Converts {α β ε : Type} (read : Reader α) (write : α → Json) (convert : α → Except ε β)
    (Right : α → β → Prop) : Prop :=
  ∀ p j x, read p j = .good x → ∃ y, convert x = .ok y ∧ Right x y ∧
    ∀ p' x', read p' (write x) = .good x' → convert x' = .ok y

theorem Faithful.converts {α β ε : Type} {read : Reader α} {write : α → Json}
    {convert : α → Except ε β} {Right : α → β → Prop} (faithful : Faithful read write)
    (right : ∀ p j x, read p j = .good x → ∃ y, convert x = .ok y ∧ Right x y) :
    Converts read write convert Right := by
  intro p j x good
  obtain ⟨y, converted, isRight⟩ := right p j x good
  refine ⟨y, converted, isRight, fun p' x' again => ?_⟩
  obtain rfl : x = x' := Checked.good.inj ((faithful p j x good p').symm.trans again)
  exact converted

/-- The number in the text that an amount is written in, as a value to be stored. -/
def writtenNumber (x : Amount) : Operand :=
  match Text.readNumeral x.decimal.toList with
  | .ok z => .int z
  | .error _ => .foreign "str"

theorem writtenNumber_eq (x : Amount) : writtenNumber x = .int x.val := by
  rw [writtenNumber, Amount.decimal, Text.readNumeral_toString x.lt]

namespace FeesBody

def shownTerm (fees : Fees) (field : String) : Operand :=
  match fees.fields.lookup field with
  | some x => writtenNumber x
  | none => .foreign "NoneType"

/-- Stores the numbers that the body of a schedule shows. -/
def store (fees : Fees) : Except FieldError Fees :=
  Fees.read (shownTerm fees)

theorem store_eq_ok (fees : Fees) : store fees = .ok fees := by
  have term {field : String} {x : Amount} (found : fees.fields.lookup field = some x) :
      Amount.read field (shownTerm fees field) = .ok x := by
    rw [shownTerm, found]
    dsimp only
    rw [writtenNumber_eq]
    exact Amount.read_eq_ok.mpr rfl
  have rate {name : String} {r : Rate}
      (numerator : fees.fields.lookup (name ++ "_numerator") = some r.numerator)
      (denominator : fees.fields.lookup (name ++ "_denominator") = some r.denominator) :
      Fees.readRate (shownTerm fees) name = .ok r := by
    rw [Fees.readRate, term numerator, term denominator]
    rfl
  have adminTrade : Fees.readRate (shownTerm fees) "admin_trade_fee" = .ok fees.adminTrade := rate rfl rfl
  have adminWithdraw : Fees.readRate (shownTerm fees) "admin_withdraw_fee" = .ok fees.adminWithdraw :=
    rate rfl rfl
  have trade : Fees.readRate (shownTerm fees) "trade_fee" = .ok fees.trade := rate rfl rfl
  have withdraw : Fees.readRate (shownTerm fees) "withdraw_fee" = .ok fees.withdraw := rate rfl rfl
  rw [store, Fees.read, adminTrade, adminWithdraw, trade, withdraw]
  rfl

end FeesBody

def ReservesBody.store (r : Reserves) : Except FieldError Reserves :=
  Reserves.read (writtenNumber r.a) (writtenNumber r.b) (writtenNumber r.supply)

theorem ReservesBody.store_eq_ok (r : Reserves) : store r = .ok r := by
  rw [store, writtenNumber_eq, writtenNumber_eq, writtenNumber_eq]
  exact Reserves.read_eq_ok.mpr ⟨rfl, rfl, rfl⟩

end Service

/-- The coefficients of the ramp are within the bounds of a request, and it does not begin before the
time zero. -/
structure Ramp.Acceptable (r : Ramp) : Prop where
  initial : 1 ≤ r.initial ∧ r.initial ≤ 1000000
  target : 1 ≤ r.target ∧ r.target ≤ 1000000
  start : 0 ≤ r.start

namespace Service

open Checked

namespace RampBody

theorem Describes.acceptable {b : RampBody} {ramp : Ramp} (describes : b.Describes ramp)
    (valid : b.Valid) : ramp.Acceptable := by
  obtain ⟨⟨initialLeast, initialMost⟩, ⟨targetLeast, targetMost⟩, start, -⟩ := valid
  obtain ⟨isInitial, isTarget, isStart, -⟩ := describes
  unfold leastAmp at initialLeast targetLeast
  unfold mostAmp at initialMost targetMost
  exact ⟨by omega, by omega, by omega⟩

/-- The body of a ramp, with its fields in their second spelling. -/
def ofRampJson (r : Ramp) : Json :=
  .obj [(initialKey.alternative, (r.initial : Int)), (targetKey.alternative, (r.target : Int)),
    (startKey.alternative, r.start), (stopKey.alternative, r.stop)]

/-- The body that is made of an acceptable ramp is accepted, and the ramp is made of it again. -/
theorem read_ofRampJson {r : Ramp} (acceptable : r.Acceptable) (p : Place) :
    read p (ofRampJson r) = .good (ofRamp r) ∧ (ofRamp r).toRamp = .ok r := by
  obtain ⟨initial, target, start⟩ := acceptable
  have valid : (ofRamp r).Valid := by
    refine ⟨?_, ?_, start, r.start_le_stop⟩
    all_goals
      simp only [ofRamp, leastAmp, mostAmp]
      omega
  have describes : (ofRamp r).Describes r := ⟨rfl, rfl, rfl, rfl⟩
  exact ⟨valid.read_of_found rfl rfl rfl rfl, describes.toRamp⟩

theorem read_converts : Converts read toJson toRamp fun b ramp => b.Describes ramp ∧ ramp.Acceptable := by
  refine faithful.converts fun p j b good => ?_
  have valid := valid_of_read good
  obtain ⟨ramp, describes⟩ := valid.exists_ramp
  exact ⟨ramp, describes.toRamp, describes, describes.acceptable valid⟩

end RampBody

theorem FeesBody.fields_convert : Converts readFields fieldsJson store fun fees stored => stored = fees :=
  fields_faithful.converts fun _ _ fees _ => ⟨fees, store_eq_ok fees, rfl⟩

theorem FeesBody.packed_converts :
    Converts readPacked packedJson unpackText fun text fees => (packed text).Describes fees := by
  refine packed_faithful.converts fun p j text good => ?_
  obtain ⟨fees, describes⟩ := (valid_of_readPacked good).exists_fees
  exact ⟨fees, describes.toFees, describes⟩

theorem ReservesBody.read_converts : Converts read toJson store fun r stored => stored = r :=
  faithful.converts fun _ _ r _ => ⟨r, store_eq_ok r, rfl⟩

theorem PoolBody.read_converts :
    Converts read toJson toPool fun b pool => b.Describes pool ∧ pool.ramp.Acceptable := by
  refine faithful.converts fun p j b good => ?_
  have valid := valid_of_read good
  obtain ⟨pool, describes⟩ := valid.exists_pool
  exact ⟨pool, describes.toPool, describes, describes.ramp.acceptable valid.ramp⟩

/-- The body of reserves, with its fields in their second spelling. -/
def ReservesBody.ofReservesJson (r : Reserves) : Json :=
  .obj [(aKey.alternative, r.a.toJson), (bKey.alternative, r.b.toJson),
    (supplyKey.alternative, r.supply.toJson)]

/-- What is written of a body that was read, of whichever kind, is read as the same body.  The ramp, the
schedule, the reserves and the pool that are made of a body never fail to be made, are what the body
describes, with coefficients within the bounds of a request, and are made again of the body that was
written and read.  The bodies that are made of an acceptable ramp and of reserves are accepted, and the
ramp and the reserves are made of them again. -/
theorem bodies_read_back :
    (∀ (kind : BodyKind) (p p' : Place) (j : Json) (b : kind.Body), kind.read p j = .good b →
      kind.read p' (kind.toJson b) = .good b) ∧
    Converts RampBody.read RampBody.toJson RampBody.toRamp
      (fun b ramp => b.Describes ramp ∧ ramp.Acceptable) ∧
    Converts FeesBody.readFields FeesBody.fieldsJson FeesBody.store (fun fees stored => stored = fees) ∧
    Converts FeesBody.readPacked FeesBody.packedJson FeesBody.unpackText
      (fun text fees => (FeesBody.packed text).Describes fees) ∧
    Converts ReservesBody.read ReservesBody.toJson ReservesBody.store (fun r stored => stored = r) ∧
    Converts PoolBody.read PoolBody.toJson PoolBody.toPool
      (fun b pool => b.Describes pool ∧ pool.ramp.Acceptable) ∧
    (∀ (p : Place) (ramp : Ramp), ramp.Acceptable →
      RampBody.read p (RampBody.ofRampJson ramp) = .good (.ofRamp ramp) ∧
      (RampBody.ofRamp ramp).toRamp = .ok ramp) ∧
    ∀ (p : Place) (r : Reserves), ReservesBody.read p (ReservesBody.ofReservesJson r) = .good r ∧
      ReservesBody.store r = .ok r := by
  refine ⟨?_, RampBody.read_converts, FeesBody.fields_convert, FeesBody.packed_converts,
    ReservesBody.read_converts, PoolBody.read_converts, ?_, ?_⟩
  · intro kind p p' j b good
    exact kind.faithful_toJson p j b good p'
  · intro p ramp acceptable
    exact RampBody.read_ofRampJson acceptable p
  · intro p r
    exact ⟨ReservesBody.read_of_found rfl rfl rfl, ReservesBody.store_eq_ok r⟩

/-- A pool whose numbers are given as texts, truth values and doubles, in both spellings, and whose fees
are given as a record. -/
def lenientJson : Json :=
  .obj [("amp", .obj [("initial_amp_factor", " +1_0.0"), ("targetAmpFactor", true), ("stopRampTs", "07")]),
    ("fees", FeesBody.packedJson PoolBody.oneIn171Text),
    ("reserves", .obj [("reserve_b", "\u0667"), ("reserveA", .int 5)])]

def lenientPool : PoolBody :=
  ⟨⟨10, 1, 0, 7⟩, .packed PoolBody.oneIn171Text, ⟨.nearest 5, .nearest 7, .zero⟩⟩

theorem read_lenientJson (p : Place) : PoolBody.read p lenientJson = .good lenientPool := by
  refine good_seq (good_seq (good_map _ (a := lenientPool.ramp) rfl) ?_) (a := lenientPool.reserves) rfl
  exact Reads.required (fun _ => PoolBody.oneIn171_text.read) rfl

def fallingRamp : Ramp :=
  ⟨10, 1, 0, 7, by decide⟩

theorem bodies_read_back_of_lenient :
    PoolBody.read ⟨[], false⟩ lenientPool.toJson = .good lenientPool ∧
      (∃ pool, lenientPool.toPool = .ok pool ∧ lenientPool.Describes pool ∧ pool.ramp.Acceptable) ∧
      RampBody.read ⟨[], false⟩ (RampBody.ofRampJson fallingRamp) = .good lenientPool.ramp := by
  obtain ⟨readAgain, -, -, -, -, converts, made, -⟩ := bodies_read_back
  have good := read_lenientJson ⟨[], false⟩
  obtain ⟨pool, isPool, right, -⟩ := converts _ _ _ good
  exact ⟨readAgain .pool _ _ _ _ good, ⟨pool, isPool, right⟩,
    (made _ fallingRamp ⟨by decide, by decide, by decide⟩).1⟩

end Service

end PegPool
