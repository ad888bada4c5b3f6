import Mathlib.Data.String.Basic
import PegPool.Proofs.Service.Refinement
import PegPool.Proofs.Text.Grammar

/-!
# The size limit

The limit is put on the size that a request announces, and the body itself is not measured.  A request
is refused exactly if its header is a number over the limit (`respond_eq_refusal_iff`), and a header that
is no number makes the answer fail (`badLength_iff`).  Therefore a body over the limit is kept out only
by a header that says so (`limited_iff_announced`): behind any other header that is a number, or behind
none, a body of any size is read and its quote is priced (`respond_padded`).
-/

namespace PegPool

namespace Json

/-! ## Texts with blanks behind them -/

def Plain (cs : List Char) : Prop :=
  ∀ c ∈ cs, 0x20 ≤ c.toNat ∧ c ≠ '"' ∧ c ≠ '\\'

instance (cs : List Char) : Decidable (Plain cs) :=
  List.decidableBAll _ cs

theorem readStringBody_plain {cs : List Char} (plain : Plain cs) (acc : List Nat) (tail : List Char) :
    readStringBody acc none (cs ++ '"' :: tail) =
      .ok (.ofPoints (acc.reverse ++ cs.map Char.toNat), tail) := by
  induction cs generalizing acc with
  | nil =>
    rw [List.map_nil, List.append_nil]
    rfl
  | cons c cs ih =>
    obtain ⟨⟨large, notQuote, notEscape⟩, plainRest⟩ := List.forall_mem_cons.mp plain
    have notControl : (decide (c.toNat < 0x20) || c == '\\') = false := by
      simp [notEscape, large]
    rw [List.cons_append, readStringBody, if_neg (Bool.eq_false_iff.mp notControl), ih plainRest]
    · simp [flush]
    · exact notQuote
    · exact fun _ _ _ _ _ isEscape => absurd isEscape notEscape
    · exact fun _ _ isEscape => absurd isEscape notEscape

def oneMember (key : List Char) : List Char :=
  '"' :: key ++ ['"', ':', '1']

theorem oneMember_append (key : List Char) (c : Char) (tail : List Char) :
    oneMember key ++ c :: tail = '"' :: (key ++ '"' :: ':' :: '1' :: c :: tail) := by
  rw [oneMember, List.cons_append, List.cons_append, List.append_assoc]
  rfl

theorem readMembers_one (key : List Char) (plain : Plain key) (fuel : Nat) (acc : Members)
    (tail : List Char) :
    readMembers (fuel + 2) acc (oneMember key ++ ',' :: tail) =
      readMembers (fuel + 1) ((.ofPoints (key.map Char.toNat), .int 1) :: acc) (skipBlanks tail) := by
  rw [oneMember_append, readMembers, readStringBody_plain plain]
  rfl

theorem readMembers_last (key : List Char) (plain : Plain key) (fuel : Nat) (acc : Members)
    (tail : List Char) :
    readMembers (fuel + 2) acc (oneMember key ++ '\x7d' :: tail) =
      .ok (ofMembers ((.ofPoints (key.map Char.toNat), .int 1) :: acc).reverse, tail) := by
  rw [oneMember_append, readMembers, readStringBody_plain plain]
  rfl

end Json

namespace Service

/-! ## What the limit looks at -/

/-- The answer to a request that announces too much: nothing has been read or priced. -/
def refusal : Traced ServerFault Reply :=
  return detail 413 "Request too large"

/-- The header is a number over the limit. -/
def AnnouncesOver (header : Option String) : Prop :=
  ∃ text z, header = some text ∧ Text.Numeral text.toList z ∧ (maxBodySize : Int) < z

/-- The header is a number, or empty, or not there. -/
def Legible (header : Option String) : Prop :=
  ∀ text, header = some text → text = "" ∨ ∃ z, Text.Numeral text.toList z

theorem AnnouncesOver.legible {header : Option String} (exceeds : AnnouncesOver header) :
    Legible header := by
  obtain ⟨text, z, rfl, numeral, -⟩ := exceeds
  rintro _ ⟨rfl⟩
  exact .inr ⟨z, numeral⟩

theorem announcesOver_iff {text : String} {z : Int} (numeral : Text.Numeral text.toList z) :
    AnnouncesOver (some text) ↔ (maxBodySize : Int) < z := by
  constructor
  · rintro ⟨_, z', ⟨rfl⟩, numeral', exceeds⟩
    obtain rfl := numeral.unique numeral'
    exact exceeds
  · exact fun exceeds => ⟨text, z, rfl, numeral, exceeds⟩

/-- What the limit makes of a header. -/
inductive Measured (header : Option String) : Except ServerFault Bool → Prop where
  | refuses (exceeds : AnnouncesOver header) : Measured header (.ok true)
  | admits (legible : Legible header) (fits : ¬ AnnouncesOver header) : Measured header (.ok false)
  | fails (text : String) (e : Text.NumeralError) (illegible : ¬ Legible header) :
      Measured header (.error (.badLength text e))

theorem measured (header : Option String) : Measured header (announcesTooMuch header) := by
  cases header with
  | none => exact .admits nofun (by rintro ⟨_, _, ⟨⟩, -⟩)
  | some text =>
    rw [announcesTooMuch]
    split
    · rename_i empty
      obtain rfl := String.isEmpty_iff.mp empty
      refine .admits ?_ ?_
      · rintro _ ⟨rfl⟩
        exact .inl rfl
      · rintro ⟨_, z, ⟨rfl⟩, numeral, -⟩
        cases numeral.readNumeral_eq
    · rename_i nonempty
      split
      · rename_i z read
        have numeral := Text.Numeral.of_readNumeral read
        have legible : Legible (some text) := by
          rintro _ ⟨rfl⟩
          exact .inr ⟨z, numeral⟩
        by_cases exceeds : (maxBodySize : Int) < z
        · rw [decide_eq_true exceeds]
          exact .refuses ((announcesOver_iff numeral).mpr exceeds)
        · rw [decide_eq_false exceeds]
          exact .admits legible (exceeds ∘ (announcesOver_iff numeral).mp)
      · rename_i e read
        refine .fails text e fun legible => ?_
        obtain rfl | ⟨z, numeral⟩ := legible text rfl
        · exact nonempty rfl
        · cases read.symm.trans numeral.readNumeral_eq

/-! ## What happens behind the limit -/

/-- An ending that is none of the limit's own. -/
inductive Passed : Except ServerFault Reply → Prop where
  | replied {reply : Reply} (other : reply.status ≠ 413) : Passed (.ok reply)
  | failed {fault : ServerFault} (other : ∀ text e, fault ≠ .badLength text e) : Passed (.error fault)

section Passed

variable {α : Type} {path operation : String} {write : α → Json}

theorem Passed.json {status : Nat} {body : Json} (other : status ≠ 413) :
    Passed (.ok (.json status body)) :=
  .replied other

theorem passed_answer (x : Traced QuoteError α) : Passed (answer path x write).outcome := by
  unfold answer
  split
  · exact .json (by decide)
  · split
    · exact .failed nofun
    · exact .json (by decide)

theorem passed_answer? (x : Traced QuoteError (Option α)) :
    Passed (answer? path operation x write).outcome := by
  unfold answer?
  split
  · exact .json (by decide)
  · exact passed_answer _
  · exact passed_answer _

theorem passed_reportFault {issues : List Issue} {fault : ServerFault}
    (isFault : reportFault? issues = some fault) : Passed (.error fault) := by
  unfold reportFault? at isFault
  dsimp only at isFault
  split at isFault
  · cases isFault
    exact .failed nofun
  · split at isFault
    · cases isFault
    · cases isFault
      exact .failed nofun

theorem passed_bodyValue {q : Request} {reply : Reply} (refused : bodyValue q = .error reply) :
    Passed (.ok reply) := by
  unfold bodyValue at refused
  split at refused
  · cases refused
  · split at refused
    · cases refused
    · split at refused
      · cases refused
      · cases refused
      · cases refused
        exact .json (by decide)

theorem passed_withBody {q : Request} {read : Reader α} {next : α → Traced ServerFault Reply}
    (passed : ∀ a, Passed (next a).outcome) : Passed (withBody q read next).outcome := by
  unfold withBody
  split
  · rename_i reply refused
    exact passed_bodyValue refused
  · split
    · exact passed _
    · split
      · rename_i isFault
        exact passed_reportFault isFault
      · exact .replied (by change (422 : Nat) ≠ 413; decide)

theorem passed_subjectPool {s : Subject} {next : Pool → Traced ServerFault Reply}
    (passed : ∀ pool, Passed (next pool).outcome) : Passed (subjectPool s >>= next).outcome := by
  rw [Traced.outcome_bind, subjectPool, Traced.outcome_lift]
  cases s.pool.toPool with
  | ok pool => exact passed pool
  | error fault => exact .failed (by simp)

theorem passed_handle (q : Request) (route : Route) : Passed (handle q route).outcome := by
  cases route with
  | health => exact .json (by decide)
  | found => exact passed_withBody fun _ => passed_answer _
  | swap | deposit | withdraw | withdrawOne =>
    exact passed_withBody fun _ => passed_subjectPool fun _ => passed_answer? _

end Passed

theorem passed_respond {q : Request} (fits : announcesTooMuch q.contentLength = .ok false) :
    Passed (respond q).outcome := by
  cases isRoute : Route.ofPath? q.path with
  | none =>
    rw [respond, fits, isRoute]
    exact .json (by decide)
  | some route =>
    rw [respond, fits, isRoute]
    change Passed (Traced.outcome (if q.method = route.method then handle q route else _))
    split
    · exact passed_handle q route
    · exact .json (by decide)

inductive Answered (q : Request) : Traced ServerFault Reply → Prop where
  | refused (exceeds : AnnouncesOver q.contentLength) : Answered q refusal
  | passed {x : Traced ServerFault Reply} (legible : Legible q.contentLength)
      (fits : ¬ AnnouncesOver q.contentLength) (passed : Passed x.outcome) : Answered q x
  | failed (text : String) (e : Text.NumeralError) (illegible : ¬ Legible q.contentLength) :
      Answered q (.fail (.badLength text e))

theorem answered (q : Request) : Answered q (respond q) := by
  have isMeasured := measured q.contentLength
  cases isVerdict : announcesTooMuch q.contentLength with
  | ok tooMuch =>
    rw [isVerdict] at isMeasured
    cases isMeasured with
    | refuses exceeds =>
      have refused : respond q = refusal := by
        rw [respond, isVerdict]
        rfl
      exact refused ▸ .refused exceeds
    | admits legible fits => exact .passed legible fits (passed_respond isVerdict)
  | error fault =>
    rw [isVerdict] at isMeasured
    cases isMeasured with
    | fails text e illegible =>
      have failed : respond q = .fail (.badLength text e) := by
        rw [respond, isVerdict]
        rfl
      exact failed ▸ .failed text e illegible

/-! ## What the limit keeps out -/

/-- A request is answered with the status of the limit exactly if its header is a number over it. -/
theorem status_eq_tooLarge_iff {q : Request} :
    (∃ reply, (respond q).outcome = .ok reply ∧ reply.status = 413) ↔
      AnnouncesOver q.contentLength := by
  have isAnswered := answered q
  generalize respond q = x at isAnswered ⊢
  cases isAnswered with
  | refused exceeds => exact ⟨fun _ => exceeds, fun _ => ⟨_, rfl, rfl⟩⟩
  | passed legible fits passed =>
    refine ⟨?_, fun exceeds => absurd exceeds fits⟩
    rintro ⟨reply, isReply, tooLarge⟩
    rw [isReply] at passed
    cases passed with
    | replied other => exact absurd tooLarge other
  | failed _ _ illegible =>
    refine ⟨?_, fun exceeds => absurd exceeds.legible illegible⟩
    rintro ⟨_, ⟨⟩, -⟩

/-- A request is refused exactly if its header is a number over the limit. -/
theorem respond_eq_refusal_iff {q : Request} :
    respond q = refusal ↔ AnnouncesOver q.contentLength := by
  rw [← status_eq_tooLarge_iff]
  constructor
  · intro refused
    rw [refused]
    exact ⟨_, rfl, rfl⟩
  · intro tooLarge
    have exceeds := status_eq_tooLarge_iff.mp tooLarge
    have isAnswered := answered q
    generalize respond q = x at isAnswered ⊢
    cases isAnswered with
    | refused => rfl
    | passed _ fits => exact absurd exceeds fits
    | failed _ _ illegible => exact absurd exceeds.legible illegible

/-- The limit fails exactly if the header is neither a number nor empty. -/
theorem badLength_iff {q : Request} :
    (∃ text e, (respond q).outcome = .error (.badLength text e)) ↔ ¬ Legible q.contentLength := by
  have isAnswered := answered q
  generalize respond q = x at isAnswered ⊢
  cases isAnswered with
  | refused exceeds =>
    refine ⟨?_, fun illegible => absurd exceeds.legible illegible⟩
    rintro ⟨_, _, ⟨⟩⟩
  | passed legible _ passed =>
    refine ⟨?_, fun illegible => absurd legible illegible⟩
    rintro ⟨text, e, bad⟩
    rw [bad] at passed
    cases passed with
    | failed other => exact absurd rfl (other text e)
  | failed text e illegible => exact ⟨fun _ => illegible, fun _ => ⟨text, e, rfl⟩⟩

/-- The request is refused if its body is over the limit, and the limit does not fail on it. -/
structure Request.Limited (q : Request) : Prop where
  refused : maxBodySize < q.body.utf8ByteSize → respond q = refusal
  total : ∀ text e, (respond q).outcome ≠ .error (.badLength text e)

theorem limited_iff {q : Request} : q.Limited ↔ Legible q.contentLength ∧
    (maxBodySize < q.body.utf8ByteSize → AnnouncesOver q.contentLength) := by
  constructor
  · rintro ⟨refused, total⟩
    have legible : Legible q.contentLength := by
      by_contra illegible
      obtain ⟨text, e, bad⟩ := badLength_iff.mpr illegible
      exact total text e bad
    exact ⟨legible, fun large => respond_eq_refusal_iff.mp (refused large)⟩
  · rintro ⟨legible, exceeds⟩
    refine ⟨fun large => respond_eq_refusal_iff.mpr (exceeds large), fun text e bad => ?_⟩
    exact badLength_iff.mp ⟨text, e, bad⟩ legible

/-- A header that tells the size of the body is enough. -/
theorem limited_of_honest {q : Request} (fits : q.body.utf8ByteSize < 2 ^ 64)
    (honest : q.contentLength = some (toString q.body.utf8ByteSize)) : q.Limited := by
  have numeral : Text.Numeral (toString q.body.utf8ByteSize).toList q.body.utf8ByteSize :=
    .of_readNumeral (Text.readNumeral_toString fits)
  rw [limited_iff, honest]
  constructor
  · rintro _ ⟨rfl⟩
    exact .inr ⟨_, numeral⟩
  · intro large
    exact ⟨_, _, rfl, numeral, Int.ofNat_lt.mpr large⟩

/-! ## A padded request -/

def foundingText : List Char :=
  '\x7b' :: (Json.oneMember "ampFactor".toList ++ ',' :: (Json.oneMember "reserveA".toList ++
    ',' :: (Json.oneMember "reserveB".toList ++ ['\x7d'])))

def foundingJson : Json :=
  .obj [("ampFactor", .int 1), ("reserveA", .int 1), ("reserveB", .int 1)]

def founding : FoundRequest :=
  ⟨1, .one, .one⟩

theorem readValue_founding (fuel : Nat) (tail : List Char) :
    Json.readValue (fuel + 5) (foundingText ++ tail) = .ok (foundingJson, tail) := by
  have behind : foundingText ++ tail = '\x7b' :: (Json.oneMember "ampFactor".toList ++ ',' ::
      (Json.oneMember "reserveA".toList ++ ',' ::
        (Json.oneMember "reserveB".toList ++ '\x7d' :: tail))) := by
    simp only [foundingText, List.append_assoc, List.cons_append, List.nil_append]
  rw [behind, Json.readValue]
  calc Json.readMembers (fuel + 4) [] _
    _ = Json.readMembers (fuel + 3) _ _ := Json.readMembers_one _ (by decide) (fuel + 2) [] _
    _ = Json.readMembers (fuel + 2) _ _ := Json.readMembers_one _ (by decide) (fuel + 1) _ _
    _ = .ok (foundingJson, tail) := Json.readMembers_last _ (by decide) fuel _ tail

/-- A valid request with as many blanks behind it as there may be bytes. -/
def paddedRequest (header : Option String) : Request where
  method := "POST"
  path := "/quote/initialize"
  body := .ofList (foundingText ++ List.replicate maxBodySize ' ')
  contentType := some "application/json"
  contentLength := header
  clock := 0

theorem length_le_utf8Len (cs : List Char) : cs.length ≤ String.utf8Len cs := by
  induction cs with
  | nil => exact Nat.le_refl 0
  | cons c cs ih =>
    rw [String.utf8Len_cons, List.length_cons]
    exact Nat.add_le_add ih c.utf8Size_pos

theorem paddedRequest_large (header : Option String) :
    maxBodySize < (paddedRequest header).body.utf8ByteSize := by
  refine Nat.lt_of_lt_of_le ?_ ((length_le_utf8Len _).trans_eq (String.utf8ByteSize_ofList _).symm)
  rw [List.length_append, List.length_replicate]
  exact Nat.lt_add_of_pos_left (by decide)

theorem toList_body (header : Option String) :
    (paddedRequest header).body.toList = foundingText ++ List.replicate maxBodySize ' ' :=
  String.toList_ofList

theorem read?_body (header : Option String) :
    Json.read? (paddedRequest header).body = .ok foundingJson := by
  have fuel : (foundingText ++ List.replicate maxBodySize ' ').length + 1 =
      (foundingText.length + maxBodySize - 4) + 5 := by
    rw [List.length_append, List.length_replicate]
    rfl
  have begins : Json.skipBlanks (foundingText ++ List.replicate maxBodySize ' ') =
      foundingText ++ List.replicate maxBodySize ' ' := rfl
  have blank : Json.skipBlanks (List.replicate maxBodySize ' ') = [] := by
    refine List.dropWhile_eq_nil_iff.mpr fun c member => ?_
    rw [List.eq_of_mem_replicate member]
    rfl
  rw [Json.read?, toList_body]
  rw [begins, fuel, readValue_founding]
  dsimp only
  rw [blank]
  rfl

theorem bodyValue_padded (header : Option String) :
    bodyValue (paddedRequest header) = .ok (.good foundingJson) := by
  have nonempty : (paddedRequest header).body.isEmpty = false := by
    have large := paddedRequest_large header
    rw [String.isEmpty_eq_utf8ByteSize_beq_zero, beq_eq_false_iff_ne]
    omega
  have json : isJsonType (paddedRequest header).contentType = true :=
    show isJsonType (some "application/json") = true by decide
  have noMark : dropMark (paddedRequest header).body = (paddedRequest header).body := by
    rw [dropMark, toList_body]
    rfl
  rw [bodyValue, nonempty, json, noMark, read?_body]
  rfl

/-- Behind a header that does not announce too much, the quote is priced. -/
theorem respond_padded {header : Option String} (fits : announcesTooMuch header = .ok false) :
    ∃ body, (respond (paddedRequest header)).outcome = .ok (.json 200 body) := by
  have validates : Inquiry.ReadAs (paddedRequest header) FoundRequest.read founding :=
    ⟨_, bodyValue_padded header, rfl⟩
  have routed : respond (paddedRequest header) =
      handle (paddedRequest header) (Inquiry.found founding).route :=
    respond_eq rfl rfl fits
  rw [routed, Inquiry.route, handle, withBody_eq validates]
  exact ⟨_, rfl⟩

/-- A request is limited exactly if its header is a number, or empty, or not there, and is over the
limit if the body is.  All requests with the same header are limited exactly if it is over the limit. -/
theorem limited_iff_announced (q : Request) :
    (q.Limited ↔ Legible q.contentLength ∧
      (maxBodySize < q.body.utf8ByteSize → AnnouncesOver q.contentLength)) ∧
    ((∀ q' : Request, q'.contentLength = q.contentLength → q'.Limited) ↔
      AnnouncesOver q.contentLength) := by
  refine ⟨limited_iff, fun limited => ?_, fun exceeds q' same => ?_⟩
  · have padded := limited_iff.mp (limited (paddedRequest q.contentLength) rfl)
    exact padded.2 (paddedRequest_large _)
  · rw [limited_iff, same]
    exact ⟨exceeds.legible, fun _ => exceeds⟩

/-- Without a header, a body over the limit is read, and the quote that it asks for is priced. -/
theorem padded_not_limited : maxBodySize < (paddedRequest none).body.utf8ByteSize ∧
    (∃ body, (respond (paddedRequest none)).outcome = .ok (.json 200 body)) ∧
    ¬ (paddedRequest none).Limited := by
  refine ⟨paddedRequest_large none, respond_padded rfl, fun limited => ?_⟩
  obtain ⟨_, _, absent, -⟩ := (limited_iff.mp limited).2 (paddedRequest_large none)
  cases absent

end Service

end PegPool
