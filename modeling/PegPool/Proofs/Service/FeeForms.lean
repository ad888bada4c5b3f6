import PegPool.Proofs.Exchange.Swap
import PegPool.Proofs.Fees.Record
import PegPool.Proofs.Service.PoolBody

/-!
# The two forms of a fee schedule

A body gives its fees field by field (`GivesFields`) or as the digits of the stored record
(`WritesRecord`).  Each form is refused by the reader of the other one, as neither takes members that
it does not know, so the order in which the two are tried makes no difference: a body is read as the
schedule that it gives, and one that mixes the forms is refused (`fee_forms_agree`).
-/

namespace PegPool

namespace Hex

theorem digit?_digit : ∀ n < 16, digit? (digit n) = some n := by decide

theorem digit?_of_upper : ∀ i < 26, ∀ n < 16, (Char.ofNat (65 + i)).toLower = digit n →
    digit? (Char.ofNat (65 + i)) = some n := by decide

theorem digit?_of_toLower {c : Char} {n : Nat} (small : n < 16) (lower : c.toLower = digit n) :
    digit? c = some n := by
  by_cases upper : c.isUpper = true
  · obtain ⟨least, most⟩ := of_decide_eq_true upper
    have least : 65 ≤ c.toNat := least
    have most : c.toNat ≤ 90 := most
    obtain ⟨i, isChar⟩ := Nat.exists_eq_add_of_le least
    rw [← Char.ofNat_toNat c, isChar] at lower ⊢
    exact digit?_of_upper i (by omega) n small lower
  · have same : c.toLower = c := dif_neg fun isUpper => upper (decide_eq_true isUpper)
    rw [← same, lower]
    exact digit?_digit n small

/-- Digits in either case are read as the bytes that they write in lower case. -/
theorem decode?_of_toLower {bs : List UInt8} {ds : List Char} (lower : ds.map Char.toLower = encode bs) :
    decode? ds = some bs := by
  induction bs generalizing ds with
  | nil =>
    obtain rfl := List.map_eq_nil_iff.mp lower
    rfl
  | cons b bs inductionHypothesis =>
    rw [encode] at lower
    obtain ⟨h, rest, rfl, isHigh, lower⟩ := List.map_eq_cons_iff.mp lower
    obtain ⟨l, rest, rfl, isLow, lower⟩ := List.map_eq_cons_iff.mp lower
    have isByte : b.toNat < 256 := b.toNat_lt
    rw [decode?, digit?_of_toLower (by omega) isHigh, digit?_of_toLower (by omega) isLow,
      inductionHypothesis lower]
    change some (UInt8.ofNat (b.toNat / 16 * 16 + b.toNat % 16) :: bs) = some (b :: bs)
    rw [Nat.div_add_mod', UInt8.ofNat_toNat]

theorem length_encode (bs : List UInt8) : (encode bs).length = 2 * bs.length := by
  induction bs with
  | nil => rfl
  | cons b bs inductionHypothesis =>
    simp only [encode, List.length_cons, inductionHypothesis]
    omega

theorem isSome_of_decode? {ds : List Char} {bs : List UInt8} (decoded : decode? ds = some bs) :
    ∀ c ∈ ds, (digit? c).isSome = true := by
  induction ds using decode?.induct generalizing bs with
  | case1 => exact List.forall_mem_nil _
  | case2 => cases decoded
  | case3 h l rest inductionHypothesis =>
    simp only [decode?, Option.bind_eq_bind, Option.bind_eq_some_iff] at decoded
    obtain ⟨high, isHigh, low, isLow, bytes, isRest, -⟩ := decoded
    simp only [List.forall_mem_cons, isHigh, isLow, Option.isSome_some, true_and]
    exact inductionHypothesis isRest

end Hex

namespace Json

variable {k key : JsonString} {v value : Json} {members : Members}

theorem find?_isSome_of_mem (member : (k, v) ∈ members) : (find? k members).isSome = true := by
  induction members with
  | nil => cases member
  | cons m rest inductionHypothesis =>
    obtain ⟨k', v'⟩ := m
    unfold find?
    split
    · rfl
    · obtain _ | ⟨_, later⟩ := member
      · exact absurd rfl ‹_›
      · exact inductionHypothesis later

theorem find?_insertMember : find? key (insertMember key value members) = some value := by
  induction members with
  | nil => exact if_pos rfl
  | cons m rest inductionHypothesis =>
    obtain ⟨k, v⟩ := m
    unfold insertMember
    split
    · exact if_pos rfl
    · rw [find?, if_neg ‹_›, inductionHypothesis]

theorem find?_insertMember_of_ne (other : key ≠ k) :
    find? k (insertMember key value members) = find? k members := by
  induction members with
  | nil => exact if_neg other
  | cons m rest inductionHypothesis =>
    obtain ⟨k', v⟩ := m
    unfold insertMember
    split
    case isTrue same =>
      subst same
      rw [find?, find?, if_neg other, if_neg other]
    case isFalse => rw [find?, find?, inductionHypothesis]

end Json

namespace Service

open Checked

variable {α : Type} {p : Place} {members given : Json.Members} {fees : Fees}

/-! ## Objects of known fields -/

def Names (keys : List Key) (k : JsonString) : Prop :=
  ∃ key ∈ keys, k = key.name ∨ k = key.alternative

theorem knows_eq_false {r : Record} {keys : List Key} {k : JsonString} (other : ¬ Names keys k) :
    r.knows keys k = false := by
  refine List.any_eq_false.mpr fun key field known => other ⟨key, field, ?_⟩
  simp only [Bool.or_eq_true, Bool.and_eq_true, beq_iff_eq] at known
  obtain same | ⟨same, -⟩ := known
  · exact .inl same
  · exact .inr same

/-- A closed body refuses an object with a member that it has no field for. -/
theorem closedBody_of_other {title : String} {keys : List Key} {fields : Record → Checked α}
    {k : JsonString} {v : Json} (member : (k, v) ∈ members) (other : ¬ Names keys k) :
    ∃ issues, closedBody title keys fields p (.obj members) = .bad issues := by
  let r : Record := ⟨p, members⟩
  have unknown : (k, v) ∈ r.members.filter fun m => !r.knows keys m.1 :=
    List.mem_filter.mpr ⟨member, by rw [knows_eq_false other]; rfl⟩
  simp only [closedBody, body]
  split
  · exact ⟨_, rfl⟩
  · unfold Record.only
    split
    case h_1 none =>
      rw [none] at unknown
      cases unknown
    case h_2 extra _ => cases fields r with
      | good a => exact ⟨_, rfl⟩
      | bad issues => exact ⟨_, rfl⟩

/-- The object has no members but fields, and each of them in one spelling. -/
structure Closed (keys : List Key) (members : Json.Members) : Prop where
  only : ∀ m ∈ members, Names keys m.1
  once : ∀ key ∈ keys, key.name ≠ key.alternative →
    Json.find? key.name members = none ∨ Json.find? key.alternative members = none

theorem Closed.knows {keys : List Key} (closed : Closed keys members) {m : JsonString × Json}
    (member : m ∈ members) : Record.knows ⟨p, members⟩ keys m.1 = true := by
  obtain ⟨key, field, spelled⟩ := closed.only m member
  refine List.any_eq_true.mpr ⟨key, field, ?_⟩
  simp only [Bool.or_eq_true, Bool.and_eq_true, beq_iff_eq, Option.isNone_iff_eq_none]
  obtain same | same := spelled
  · exact .inl same
  · by_cases one : key.name = key.alternative
    · exact .inl (same.trans (congrArg _ one.symm))
    obtain none | none := closed.once key field one
    · exact .inr ⟨same, none⟩
    · have found := Json.find?_isSome_of_mem member
      rw [same, none] at found
      cases found

theorem closedBody_of_closed {title : String} {keys : List Key} {fields : Record → Checked α} {a : α}
    (closed : Closed keys members) (good : fields ⟨p, members⟩ = .good a) :
    closedBody title keys fields p (.obj members) = .good a := by
  let r : Record := ⟨p, members⟩
  have characters : r.brokenKey? = none := by
    rw [Record.brokenKey?, Option.map_eq_none_iff, List.find?_eq_none]
    intro m member
    obtain ⟨key, -, same | same⟩ := closed.only m member
    · rw [same]
      exact Bool.false_ne_true
    · rw [same]
      exact Bool.false_ne_true
  have known : r.members.filter (fun m => !r.knows keys m.1) = [] := by
    refine List.filter_eq_nil_iff.mpr fun m member unknown => ?_
    rw [closed.knows member] at unknown
    cases unknown
  have only : r.only keys = .good () := by
    rw [Record.only, known]
  simp only [closedBody, body]
  rw [characters]
  exact good_seq (good_map _ good) only

/-! ## Amounts -/

/-- The value is the amount, as an integer or as a row of decimal digits, with any zeros in front. -/
inductive Writes (a : Amount) : Json → Prop where
  | integer : Writes a (.int a.val)
  | digits {text : String} (nonempty : text.toList ≠ []) (digits : ∀ c ∈ text.toList, c.isDigit = true)
      (short : text.toList.length ≤ Text.maxNumeralDigits)
      (isValue : Nat.ofDigitChars 10 text.toList 0 = a.val) : Writes a (.str text)

theorem Writes.reads {a : Amount} {j : Json} (writes : Writes a j) : Reads amount j a := by
  intro p
  have stored : Amount.ofNat? (a.val : Int).toNat = some a := Amount.ofNat?_eq_some.mpr rfl
  have shown (text : String) : Amount.ofShown text a.val = .ok a := by
    rw [Amount.ofShown, if_neg (by omega), stored]
  cases writes with
  | integer => rw [amount, Amount.ofJson, shown]
  | digits nonempty digits short isValue =>
    rw [amount, Amount.ofJson, Text.readNumeral_of_isDigit nonempty digits short, isValue]
    dsimp only
    rw [shown]

/-- The object has the amount for a field, or leaves out an amount of zero. -/
structure Gives (members : Json.Members) (key : Key) (a : Amount) : Prop where
  writes : ∀ v, Json.find? key.name members = some v ∨ Json.find? key.alternative members = some v →
    Writes a v
  omitted : Json.find? key.name members = none → Json.find? key.alternative members = none →
    a = .zero

theorem Gives.optional {key : Key} {a : Amount} (gives : Gives members key a) :
    Record.optional ⟨p, members⟩ key amount .zero = .good a := by
  unfold Record.optional Record.find?
  dsimp only
  cases byName : Json.find? key.name members with
  | some v => exact (gives.writes v (.inl byName)).reads _
  | none => cases byAlternative : Json.find? key.alternative members with
    | some v => exact (gives.writes v (.inr byAlternative)).reads _
    | none =>
      rw [gives.omitted byName byAlternative]
      rfl

namespace FeesBody

/-! ## The two forms -/

/-- The object gives the schedule field by field.  The second spelling of a key is the name of the
field. -/
structure GivesFields (members : Json.Members) (fees : Fees) : Prop where
  closed : Closed fieldKeys members
  gives : ∀ key ∈ fieldKeys, ∀ a, (key.alternative, a) ∈ fees.fields → Gives members key a

/-- The text is the mark and the digits of the record, in either case. -/
def WritesRecord (text : String) (fees : Fees) : Prop :=
  ∃ digits, text.toList = '0' :: 'x' :: digits ∧ digits.map Char.toLower = Hex.encode fees.pack

theorem GivesFields.readFields (gives : GivesFields members fees) :
    readFields p (.obj members) = .good fees := by
  refine closedBody_of_closed gives.closed ?_
  have optional (key : Key) (field : key ∈ fieldKeys) (a : Amount)
      (isTerm : (key.alternative, a) ∈ fees.fields) :
      Record.optional ⟨p, members⟩ key amount .zero = .good a :=
    (gives.gives key field a isTerm).optional
  have rate (keys : Key × Key) (r : Rate) (fields : keys.1 ∈ fieldKeys ∧ keys.2 ∈ fieldKeys)
      (terms : (keys.1.alternative, r.numerator) ∈ fees.fields ∧
        (keys.2.alternative, r.denominator) ∈ fees.fields) :
      readRate ⟨p, members⟩ keys = .good r :=
    good_seq (good_map _ (optional keys.1 fields.1 _ terms.1)) (optional keys.2 fields.2 _ terms.2)
  refine good_seq (good_seq (good_seq (good_map _ ?adminTrade) ?adminWithdraw) ?trade) ?withdraw
  case adminTrade =>
    exact rate _ _ (by decide) ⟨List.mem_of_getElem? (i := 0) rfl, List.mem_of_getElem? (i := 1) rfl⟩
  case adminWithdraw =>
    exact rate _ _ (by decide) ⟨List.mem_of_getElem? (i := 2) rfl, List.mem_of_getElem? (i := 3) rfl⟩
  case trade =>
    exact rate _ _ (by decide) ⟨List.mem_of_getElem? (i := 4) rfl, List.mem_of_getElem? (i := 5) rfl⟩
  case withdraw =>
    exact rate _ _ (by decide) ⟨List.mem_of_getElem? (i := 6) rfl, List.mem_of_getElem? (i := 7) rfl⟩

theorem packed_not_names : ¬ Names fieldKeys packedKey.name := by
  have other : ∀ key ∈ fieldKeys, packedKey.name ≠ key.name ∧ packedKey.name ≠ key.alternative := by
    decide
  rintro ⟨key, field, same | same⟩
  · exact (other key field).1 (JsonString.plain.inj same)
  · exact (other key field).2 (JsonString.plain.inj same)

theorem names_packedKey {k : JsonString} (names : Names [packedKey] k) : k = packedKey.name := by
  obtain ⟨key, field, same⟩ := names
  obtain rfl := List.mem_singleton.mp field
  exact same.elim id id

theorem WritesRecord.valid {text : String} (writes : WritesRecord text fees) : (packed text).Valid := by
  obtain ⟨digits, isText, lower⟩ := writes
  have decoded := Hex.decode?_of_toLower lower
  refine ⟨?_, ?_⟩
  · have even := congrArg List.length lower
    rw [List.length_map, Hex.length_encode, fees.length_pack] at even
    rw [← String.length_toList, isText, List.length_cons, List.length_cons, even]
    rfl
  · rw [isText]
    exact List.all_eq_true.mpr (Hex.isSome_of_decode? decoded)

theorem Valid.readPacked {text : String} (valid : (packed text).Valid) :
    readPacked p (packedJson text) = .good text := by
  obtain ⟨size, isHex⟩ := valid
  have reads : packedText (p.member packedKey.name) (.str text) = .good text := by
    refine andThen_eq_good.mpr ⟨text, rfl, ?_⟩
    rw [if_neg (by omega), if_neg (by omega), if_pos isHex]
  refine closedBody_of_closed ⟨?_, ?_⟩ reads
  · intro m member
    obtain rfl := List.mem_singleton.mp member
    exact ⟨packedKey, List.mem_singleton.mpr rfl, .inl rfl⟩
  · intro key field other
    obtain rfl := List.mem_singleton.mp field
    exact absurd rfl other

theorem Valid.read_packed {text : String} (valid : (packed text).Valid) :
    FeesBody.read p (packedJson text) = .good (.packed text) := by
  obtain ⟨issues, refused⟩ : ∃ issues,
      FeesBody.readFields (p.member fieldsTitle) (packedJson text) = .bad issues :=
    closedBody_of_other List.mem_cons_self packed_not_names
  rw [FeesBody.read, refused, valid.readPacked]

theorem WritesRecord.read {text : String} (writes : WritesRecord text fees) :
    FeesBody.read p (packedJson text) = .good (.packed text) :=
  writes.valid.read_packed

theorem GivesFields.read (gives : GivesFields members fees) :
    FeesBody.read p (.obj members) = .good (.fields fees) := by
  rw [FeesBody.read, gives.readFields]

theorem WritesRecord.describes {text : String} (writes : WritesRecord text fees) :
    Describes (.packed text) fees := by
  obtain ⟨digits, isText, lower⟩ := writes
  have decoded : Hex.decode? (text.toList.drop 2) = some fees.pack := by
    rw [isText]
    exact Hex.decode?_of_toLower lower
  exact .packed decoded fees.unpack_pack

/-- Neither form takes an object that has members of both. -/
theorem read_of_mixed {v w : Json} {k : JsonString} (packed : (↑packedKey.name, v) ∈ members)
    (field : (k, w) ∈ members) (names : Names fieldKeys k) :
    ∃ issues, FeesBody.read p (.obj members) = .bad issues := by
  have other : ¬ Names [packedKey] k := fun same =>
    packed_not_names (names_packedKey same ▸ names)
  obtain ⟨issues, refused⟩ : ∃ issues,
      FeesBody.readFields (p.member fieldsTitle) (.obj members) = .bad issues :=
    closedBody_of_other packed packed_not_names
  obtain ⟨more, refused'⟩ : ∃ issues,
      FeesBody.readPacked (p.member packedTitle) (.obj members) = .bad issues :=
    closedBody_of_other field other
  exact ⟨issues ++ more, by rw [FeesBody.read, refused, refused']⟩

end FeesBody

/-! ## Pools with fees in either form -/

namespace PoolBody

def withFees (members : Json.Members) (feesJson : Json) : Json.Members :=
  Json.insertMember feesKey.name feesJson members

/-- The coefficient and the reserves of the body are read as these. -/
structure ReadsRest (p : Place) (members : Json.Members) (ramp : RampBody) (reserves : Reserves) : Prop
    where
  ramp : Record.required ⟨p, members⟩ rampKey RampBody.read = .good ramp
  reserves : Record.required ⟨p, members⟩ reservesKey ReservesBody.read = .good reserves

variable {ramp : RampBody} {reserves : Reserves} {feesJson : Json}

theorem find?_withFees (p : Place) (members : Json.Members) (feesJson : Json) {key : Key}
    (other : feesKey.name ≠ key.name ∧ feesKey.name ≠ key.alternative) :
    Record.find? ⟨p, withFees members feesJson⟩ key = Record.find? ⟨p, members⟩ key := by
  have name : (↑feesKey.name : JsonString) ≠ key.name := other.1 ∘ JsonString.plain.inj
  have alternative : (↑feesKey.name : JsonString) ≠ key.alternative := other.2 ∘ JsonString.plain.inj
  unfold Record.find? withFees
  dsimp only
  rw [Json.find?_insertMember_of_ne name, Json.find?_insertMember_of_ne alternative]

theorem required_withFees {read : Reader α} {key : Key} {a : α}
    (other : feesKey.name ≠ key.name ∧ feesKey.name ≠ key.alternative)
    (good : Record.required ⟨p, members⟩ key read = .good a) :
    Record.required ⟨p, withFees members feesJson⟩ key read = .good a := by
  unfold Record.required at good ⊢
  rw [find?_withFees p members feesJson other]
  split at good
  · exact good
  · cases good

theorem find?_fees : Record.find? ⟨p, withFees members feesJson⟩ feesKey =
    some (feesKey.name, feesJson) := by
  unfold Record.find? withFees
  rw [Json.find?_insertMember]

theorem ReadsRest.read {b : FeesBody} (rest : ReadsRest p members ramp reserves)
    (good : Reads FeesBody.read feesJson b) :
    PoolBody.read p (.obj (withFees members feesJson)) = .good ⟨ramp, b, reserves⟩ := by
  refine good_seq (good_seq (good_map _ ?_) ?_) ?_
  · exact required_withFees (by decide) rest.ramp
  · exact good.required find?_fees
  · exact required_withFees (by decide) rest.reserves

/-- Bodies that describe the same fees beside the same members describe the same pool. -/
theorem ReadsRest.exists_pool (rest : ReadsRest p members ramp reserves) (fees : Fees) :
    ∃ pool : Pool, pool.fees = fees ∧
      ∀ b : FeesBody, b.Describes fees → (⟨ramp, b, reserves⟩ : PoolBody).toPool = .ok pool := by
  obtain ⟨_, _, given⟩ := required_good rest.ramp
  obtain ⟨course, isCourse⟩ := (RampBody.valid_of_read given).exists_ramp
  refine ⟨⟨course, fees, reserves⟩, rfl, fun b describes => ?_⟩
  exact PoolBody.Describes.toPool ⟨isCourse, describes, rfl⟩

theorem read_of_refused_fees (refused : ∀ p, ∃ issues, FeesBody.read p feesJson = .bad issues) :
    ∃ issues, PoolBody.read p (.obj (withFees members feesJson)) = .bad issues := by
  cases result : PoolBody.read p (.obj (withFees members feesJson)) with
  | bad issues => exact ⟨issues, rfl⟩
  | good b =>
    change _ <$> _ <*> _ <*> _ = _ at result
    obtain ⟨_, _, taken, -, -⟩ := seq_eq_good.mp result
    obtain ⟨_, fees, -, readFees, -⟩ := seq_eq_good.mp taken
    rw [Record.required, find?_fees] at readFees
    obtain ⟨issues, isBad⟩ := refused (p.member feesKey.name)
    cases isBad.symm.trans readFees

/-- The record of a schedule is its eight terms in order, in eight bytes each, the lowest first;
schedules and byte strings of the size of a record are in one to one correspondence.  A body that gives
a schedule field by field and the same body with the digits of its record are both read, as the same
pool with this schedule, and a body that mixes the two forms is refused. -/
theorem fee_forms_agree :
    (∀ fees : Fees, fees.pack.length = 64 ∧
      (∀ i k, k < 8 → fees.pack[8 * i + k]? =
        fees.fields[i]?.map fun field => UInt8.ofNat (field.2.val / 256 ^ k % 256)) ∧
      Fees.unpack fees.pack = .ok fees) ∧
    (∀ bs : List UInt8,
      (bs.length = 64 → ∃ fees, Fees.unpack bs = .ok fees ∧ fees.pack = bs) ∧
      (bs.length ≠ 64 → Fees.unpack bs = .error ⟨bs.length⟩)) ∧
    (∀ (p : Place) (members : Json.Members) (ramp : RampBody) (reserves : Reserves) (fees : Fees)
      (given : Json.Members) (text : String), ReadsRest p members ramp reserves →
      FeesBody.GivesFields given fees → FeesBody.WritesRecord text fees →
      ∃ (b b' : PoolBody) (pool : Pool),
        PoolBody.read p (.obj (withFees members (.obj given))) = .good b ∧
        PoolBody.read p (.obj (withFees members (FeesBody.packedJson text))) = .good b' ∧
        b.toPool = .ok pool ∧ b'.toPool = .ok pool ∧ pool.fees = fees) ∧
    ∀ (p : Place) (members given : Json.Members) (k : JsonString) (v w : Json),
      (↑FeesBody.packedKey.name, v) ∈ given → (k, w) ∈ given → Names FeesBody.fieldKeys k →
      ∃ issues, PoolBody.read p (.obj (withFees members (.obj given))) = .bad issues := by
  refine ⟨?_, ?_, ?_, ?_⟩
  · intro fees
    exact ⟨fees.length_pack, fun i k byte => fees.getElem?_pack i byte, fees.unpack_pack⟩
  · intro bs
    refine ⟨fun size => ?_, (Fees.unpack_of_length bs).2⟩
    obtain ⟨fees, unpacked⟩ := (Fees.unpack_of_length bs).1 size
    exact ⟨fees, unpacked, (Fees.unpack_eq_ok.mp unpacked).symm⟩
  · intro p members ramp reserves fees given text rest gives writes
    obtain ⟨pool, isFees, describes⟩ := rest.exists_pool fees
    exact ⟨_, _, pool, rest.read fun _ => gives.read, rest.read fun _ => writes.read,
      describes _ (.fields fees), describes _ writes.describes, isFees⟩
  · intro p members given k v w packed field names
    exact read_of_refused_fees fun _ => FeesBody.read_of_mixed packed field names

def oneIn171 : Fees :=
  { Fees.zero with trade := ⟨.one, ⟨171, by decide⟩⟩ }

/-- Field by field, in both spellings and in both forms of an amount. -/
def oneIn171Given : Json.Members :=
  [("trade_fee_denominator", .int 171), ("tradeFeeNumerator", "01")]

def oneIn171Text : String :=
  .ofList ('0' :: 'x' :: (List.replicate 64 '0' ++ "0100000000000000aB00000000000000".toList ++
    List.replicate 32 '0'))

theorem oneIn171_closed : Closed FeesBody.fieldKeys oneIn171Given := by
  refine ⟨?_, ?_⟩
  · change ∀ m ∈ oneIn171Given, ∃ key ∈ FeesBody.fieldKeys, m.1 = key.name ∨ m.1 = key.alternative
    decide
  · have once : ∀ key ∈ FeesBody.fieldKeys, (Json.find? key.name oneIn171Given).isNone ∨
        (Json.find? key.alternative oneIn171Given).isNone := by decide
    intro key field _
    simpa only [Option.isNone_iff_eq_none] using once key field

theorem oneIn171_given : FeesBody.GivesFields oneIn171Given oneIn171 := by
  refine ⟨oneIn171_closed, fun key field a isTerm => ?_⟩
  have terms : ∀ key ∈ FeesBody.fieldKeys, ∀ term ∈ oneIn171.fields, key.alternative = term.1 →
      (key = FeesBody.tradeKeys.1 ∧ term.2 = oneIn171.trade.numerator) ∨
      (key = FeesBody.tradeKeys.2 ∧ term.2 = oneIn171.trade.denominator) ∨
      ((Json.find? key.name oneIn171Given).isNone ∧ (Json.find? key.alternative oneIn171Given).isNone ∧
        term.2 = .zero) := by
    decide
  obtain ⟨rfl, isValue⟩ | ⟨rfl, isValue⟩ | ⟨noName, noAlternative, isZero⟩ :=
    terms key field (key.alternative, a) isTerm rfl
  · obtain rfl : a = oneIn171.trade.numerator := isValue
    refine ⟨?_, nofun⟩
    rintro v (found | found)
    · cases found
      exact .digits (by decide) (List.all_eq_true.mp (by decide)) (by decide) (by decide)
    · cases found
  · obtain rfl : a = oneIn171.trade.denominator := isValue
    refine ⟨?_, nofun⟩
    rintro v (found | found)
    · cases found
    · cases found
      exact .integer
  · rw [Option.isNone_iff_eq_none] at noName noAlternative
    refine ⟨?_, fun _ _ => isZero⟩
    rintro v (found | found)
    · cases noName.symm.trans found
    · cases noAlternative.symm.trans found

theorem oneIn171_text : FeesBody.WritesRecord oneIn171Text oneIn171 :=
  ⟨_, String.toList_ofList, by decide⟩

def ones : Json.Members :=
  [("amp", .obj [("initialAmpFactor", .int 1), ("targetAmpFactor", .int 1)]),
    ("reserves", .obj [("reserveA", .int 1), ("reserveB", .int 1)])]

theorem fee_forms_agree_at_oneIn171 : ∃ (b b' : PoolBody) (pool : Pool),
    PoolBody.read ⟨[], false⟩ (.obj (withFees ones (.obj oneIn171Given))) = .good b ∧
      PoolBody.read ⟨[], false⟩ (.obj (withFees ones (FeesBody.packedJson oneIn171Text))) = .good b' ∧
      b.toPool = .ok pool ∧ b'.toPool = .ok pool ∧ pool.fees = oneIn171 :=
  fee_forms_agree.2.2.1 _ ones ⟨1, 1, 0, 0⟩ ⟨⟨1, by decide⟩, ⟨1, by decide⟩, .zero⟩ oneIn171 oneIn171Given
    oneIn171Text ⟨rfl, rfl⟩ oneIn171_given oneIn171_text

end PoolBody

end Service

end PegPool
