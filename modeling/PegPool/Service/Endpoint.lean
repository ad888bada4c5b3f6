import PegPool.Json.Reader
import PegPool.Json.Writer
import PegPool.Service.Response
import PegPool.Text.Quoted

/-!
# Answering requests

`respond` answers one request: the announced size of the body is limited first, then the path and
the method choose what to do, the body is read and checked, and the quote that it asks for is
priced.  A quote is written as a response body, an error of the pricing as an error body with status
400, and an invalid body as the list of what is wrong with it.

Nothing is kept from one request to the next; the time comes with the request.
-/

namespace PegPool.Service

structure Request where
  method : String
  path : String
  /-- The text of the body; empty if there is none. -/
  body : String
  /-- The header that tells the form of the body. -/
  contentType : Option String
  /-- The header that tells the size of the body. -/
  contentLength : Option String
  clock : Int
deriving DecidableEq, Repr

inductive Reply where
  | json (status : Nat) (body : Json)
  | invalid (issues : List Issue)
deriving Repr

def Reply.status : Reply → Nat
  | json status _ => status
  | invalid _ => 422

inductive ServerFault where
  | badLength (text : String) (error : Text.NumeralError)
  /-- The report on an invalid body would have to show a double that is not finite. -/
  | nonFiniteReport
  /-- The report on an invalid body would have surrogates that stand alone, from one place of its
  text to another; the first of them is `unit`. -/
  | unencodableReport (first last unit : Nat)
  /-- A checked body describes no pool. -/
  | pool (fault : PoolFault)
  /-- Pricing failed in a way that callers are not told of. -/
  | pricing (error : QuoteError)
deriving DecidableEq, Repr

def ServerFault.message : ServerFault → String
  | badLength text .malformed =>
      "invalid literal for int() with base 10: " ++
        String.ofList ((Text.quoted (text.toList.map Char.toNat)).take 200)
  | badLength _ (.tooLong digits) =>
      s!"Exceeds the limit ({Text.maxNumeralDigits} digits) for integer string conversion: " ++
        s!"value has {digits} digits; use sys.set_int_max_str_digits() to increase the limit"
  | nonFiniteReport => "Out of range float values are not JSON compliant"
  | unencodableReport first last unit =>
      "'utf-8' codec can't encode " ++
        (if first = last then
          s!"character '{String.ofList (Text.numberEscape unit)}' in position {first}"
        else s!"characters in position {first}-{last}") ++
        ": surrogates not allowed"
  | pool fault => fault.message
  | pricing error => error.message

/-! ## The size limit -/

/-- The most bytes of a body that is read. -/
def maxBodySize : Nat := 65536

/-- The announced size is over the limit; a header that is empty or not there announces none. -/
def announcesTooMuch : Option String → Except ServerFault Bool
  | none => .ok false
  | some text =>
      if text.isEmpty then .ok false
      else match Text.readNumeral text.toList with
        | .ok n => .ok (decide ((maxBodySize : Int) < n))
        | .error e => .error (.badLength text e)

/-! ## Paths -/

inductive Route where
  | health
  | found
  | swap
  | deposit
  | withdraw
  | withdrawOne
deriving DecidableEq, Repr

namespace Route

def path : Route → String
  | health => "/health"
  | found => "/quote/initialize"
  | swap => "/quote/swap"
  | deposit => "/quote/deposit"
  | withdraw => "/quote/withdraw"
  | withdrawOne => "/quote/withdraw-one"

def all : List Route :=
  [health, found, swap, deposit, withdraw, withdrawOne]

def ofPath? (path : String) : Option Route :=
  all.find? fun r => r.path == path

def method : Route → String
  | health => "GET"
  | _ => "POST"

end Route

/-! ## Bodies -/

def detail (status : Nat) (text : String) : Reply :=
  .json status (.obj [("detail", .str text)])

/-- The main type and the subtype of a content type, without its parameters. -/
def mediaType (contentType : String) : List Char × List Char :=
  let text := (Text.trim Text.isBlank (contentType.toList.takeWhile (· != ';'))).map Char.toLower
  (text.takeWhile (· != '/'), (text.dropWhile (· != '/')).drop 1)

def isJsonType : Option String → Bool
  | none => false
  | some text =>
      let (main, sub) := mediaType text
      main == "application".toList && !sub.contains '/' &&
        (sub == "json".toList || "+json".toList.isSuffixOf sub)

def bodyPlace : Place := ⟨["body"], true⟩

def dropMark (text : String) : String :=
  match text.toList with
  | '\uFEFF' :: rest => String.ofList rest
  | _ => text

/-- The value in a request's body. A body that does not say it is JSON is a text. -/
def bodyValue (q : Request) : Except Reply (Checked Json) :=
  if q.body.isEmpty then .ok (refuse bodyPlace .missing .null)
  else if !isJsonType q.contentType then .ok (.good (.str q.body))
  else match Json.read? (dropMark q.body) with
    | .ok j => .ok (.good j)
    | .error .malformed => .ok (refuse bodyPlace .notJson (.obj []))
    | .error (.integerTooLong _) => .error (detail 400 "There was an error parsing the body")

/-! ## Answers -/

def reject (path kind : String) (body : ErrorResponse) : Traced ServerFault Reply :=
  ⟨[.quoteRejected path kind], .ok (.json 400 body.toSparseJson)⟩

def answer {α : Type} (path : String) (x : Traced QuoteError α) (write : α → Json) :
    Traced ServerFault Reply :=
  match x.outcome with
  | .ok q => ⟨x.events, .ok (.json 200 (write q))⟩
  | .error e => match e.kind? with
    | none => ⟨x.events, .error (.pricing e)⟩
    | some kind =>
        let body : ErrorResponse := match e with
          | .slippage expected actual =>
              ⟨kind, e.message, some expected.toNat, some actual.toNat⟩
          | _ => ⟨kind, e.message, none, none⟩
        let rejection := reject path kind body
        ⟨x.events ++ rejection.events, rejection.outcome⟩

/-- Answers with a quote that may be missing; asking for nothing to be moved is an error. -/
def answer? {α : Type} (path operation : String) (x : Traced QuoteError (Option α))
    (write : α → Json) : Traced ServerFault Reply :=
  match x.outcome with
  | .ok none =>
      let rejection := reject path "invalid_input"
        ⟨"invalid_input", s!"{operation} with a zero amount is a no-op", none, none⟩
      ⟨x.events ++ .nothingQuoted operation :: rejection.events, rejection.outcome⟩
  | .ok (some q) => answer path ⟨x.events, .ok q⟩ write
  | .error e => answer path ⟨x.events, .error e⟩ write

def report (issues : List Issue) : Json :=
  .obj [("detail", .arr (issues.map Issue.toJson))]

/-- Why the report on an invalid body cannot be sent: it holds a double that is not finite, or else
a surrogate that stands alone. -/
def reportFault? (issues : List Issue) : Option ServerFault :=
  let body := report issues
  if body.hasNonFinite then some .nonFiniteReport
  else
    let text := body.written
    let place := (text.takeWhile fun n => !JsonString.isSurrogate n).length
    match (text.drop place).takeWhile JsonString.isSurrogate with
    | [] => none
    | unit :: more => some (.unencodableReport place (place + more.length) unit)

/-- Reads a body and goes on with it, or tells what is wrong. -/
def withBody {α : Type} (q : Request) (read : Reader α) (next : α → Traced ServerFault Reply) :
    Traced ServerFault Reply :=
  match bodyValue q with
  | .error reply => .ok reply
  | .ok value => match value.andThen (read bodyPlace) with
    | .good a => next a
    | .bad issues => match reportFault? issues with
      | some fault => .fail fault
      | none => .ok (.invalid issues)

def subjectPool (s : Subject) : Traced ServerFault Pool :=
  Traced.lift (s.pool.toPool.mapError .pool)

def Subject.time (s : Subject) (clock : Int) : Int :=
  s.now.getD clock

/-- Answers a request on a path with the right method. -/
def handle (q : Request) : Route → Traced ServerFault Reply
  | .health => return .json 200 (.obj [("status", .str "ok"), ("version", .str "0.1.0")])
  | .found => withBody q FoundRequest.read fun r =>
      answer q.path (Quote.found Curve.defaultCap {} r.amp r.reserveA r.reserveB) fun a =>
        (FoundResponse.ofQuote a).toJson
  | .swap => withBody q SwapRequest.read fun r => do
      let pool ← subjectPool r.subject
      answer? q.path "swap"
        (Quote.swap Curve.defaultCap pool (r.subject.time q.clock) r.amountIn r.minimum r.direction)
        fun a => (SwapResponse.ofQuote a).toJson
  | .deposit => withBody q DepositRequest.read fun r => do
      let pool ← subjectPool r.subject
      answer? q.path "deposit"
        (Quote.deposit Curve.defaultCap pool (r.subject.time q.clock) r.amountA r.amountB r.minimum)
        fun a => (DepositResponse.ofQuote a).toJson
  | .withdraw => withBody q WithdrawRequest.read fun r => do
      let pool ← subjectPool r.subject
      answer? q.path "withdraw" (Quote.withdraw pool r.burned r.minimumA r.minimumB)
        fun a => (WithdrawResponse.ofQuote a).toJson
  | .withdrawOne => withBody q WithdrawOneRequest.read fun r => do
      let pool ← subjectPool r.subject
      answer? q.path "withdraw_one"
        (Quote.withdrawOne Curve.defaultCap pool (r.subject.time q.clock) r.burned r.minimum r.base)
        fun a => (WithdrawOneResponse.ofQuote a).toJson

def respond (q : Request) : Traced ServerFault Reply := do
  if ← Traced.lift (announcesTooMuch q.contentLength) then return detail 413 "Request too large"
  match Route.ofPath? q.path with
  | none => return detail 404 "Not Found"
  | some route =>
      if q.method = route.method then handle q route
      else return detail 405 "Method Not Allowed"

end PegPool.Service
