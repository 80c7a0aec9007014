/-
  ErrorContract.Sample.Service
  ────────────────────────────
  **THE ROUTES OF A SAMPLE SERVICE.**

  Handlers that stand in for an application over a database.  Each fails the
  way a real one would: in the database client, in the SQL layer, in the
  application itself, while it reads its request, or in a panic.
-/
import ErrorContract.Failure.Classify
import ErrorContract.Http.Captures
import ErrorContract.Http.Extract
import ErrorContract.Http.Query
import ErrorContract.Sample.Bodies
import ErrorContract.Server.Basic
import ErrorContract.Text.Words

namespace ErrorContract.Sample

open ErrorContract Http Server

/-! ## §1. Reading requests. -/

/-- Use what captures hold; what cannot be used is a failure. -/
def withCaptures (read : Except CaptureFault α) (use : α → Outcome) : Outcome :=
  match read with
  | .ok a => use a
  | .error fault => .failure (.badRequest fault.message)

/-- Use what captures hold; what cannot be used is answered at once, in plain text. -/
def withPlainCaptures (read : Except CaptureFault α) (use : α → Outcome) : Outcome :=
  match read with
  | .ok a => use a
  | .error fault => .response (.plain 400 fault.message)

/-- Use what a query holds; what cannot be used is a failure. -/
def withQuery (read : Except Query.Fault α) (use : α → Outcome) : Outcome :=
  match read with
  | .ok a => use a
  | .error fault => .failure (.badRequest fault.message)

/-- Answer the value in the body of a request. -/
def withBody (type : BodyType) (r : Request) (respond : Json.Value → Response) : Outcome :=
  .ofExcept respond (extractJson schema (schema type) r.headers r.body)

/-- End with an error that the application raised. -/
def raise (e : Raised) : Outcome := .failure (Failure.classify e)

/-- Plain text as a layer of an error. -/
def note (message : String) : Raised := .bare (.other message)

/-! ## §2. Failing handlers. -/

/-- The number of elements of a member. -/
def sizeOf (member : String) : Json.Value → Nat
  | .object members =>
    match members.lookup member with
    | some (.list items) => items.length
    | _ => 0
  | _ => 0

/-- Insert rows, and answer how many there were. -/
def insertRows : Handler := fun r _ =>
  withBody .insert r fun v => .plain 201 (Decimal.text (sizeOf "rows" v))

/-- The kind of vendor codes. -/
def codeKind : IntegerKind := .signed 32

/-- What a vendor says of a failure that was asked for. -/
def vendorMessage (vendor : String) (code : Int) : String :=
  vendor ++ " failure " ++ Decimal.signedText code

/-- Fail in the database client with a code. -/
def clientFailure : Handler := fun _ captures =>
  withCaptures (captures.number codeKind) fun code =>
    .failure (.client ⟨Int32.ofInt code, vendorMessage "client" code⟩)

/-- Fail in a statement with a code. -/
def statementFailure : Handler := fun _ captures =>
  withCaptures (captures.number codeKind) fun code =>
    .failure (.statement ⟨Int32.ofInt code, vendorMessage "statement" code⟩)

/-- Fail in the SQL layer with a code, in a context. -/
def sqlFailure : Handler := fun _ captures =>
  withCaptures (captures.number codeKind) fun code =>
    raise (.within (.bare (.sql ⟨Int32.ofInt code, vendorMessage "sql" code⟩))
      [note "execute statement"])

/-- Look a table up that does not exist. -/
def table : Handler := fun _ captures =>
  withPlainCaptures captures.text fun name =>
    .failure (.notFound ("table " ++ name ++ " does not exist"))

/-- Drop a table that is still needed. -/
def dropTable : Handler := fun _ captures =>
  withPlainCaptures captures.text fun name =>
    .failure (.conflict ("table " ++ name ++ " is referenced"))

/-- Look a row up that does not exist. -/
def row : Handler := fun _ captures =>
  withPlainCaptures (captures.number (.unsigned 32)) fun id =>
    let row := "row " ++ Decimal.signedText id
    raise (.within (note (row ++ " missing"))
      [.bare (.failure (.notFound (row ++ " does not exist")))])

/-- Parse a number in application code. -/
def parseNumber : Handler := fun _ captures =>
  withPlainCaptures captures.text fun text =>
    match Numeral.parse (.signed 64) text with
    | .ok i => .response (.plain 200 (Decimal.signedText i))
    | .error fault =>
      raise (.within (.bare (.common .wholeNumber fault.message)) [note "parse row id"])

/-- A column whose bytes are no text. -/
def brokenColumn : List UInt8 := [0xff, 0xfe]

/-- Decode a column in application code. -/
def decodeColumn : Handler := fun _ _ =>
  match Utf8.decodeText brokenColumn with
  | .ok text => .response (.plain 200 text)
  | .error fault =>
    raise (.within (.bare (.common .textConversion fault.message)) [note "decode column"])

/-- Refuse a login. -/
def login : Handler := fun _ _ => .failure (.unauthorized "invalid credentials")

/-- Fail with nothing but a text. -/
def unknownFailure : Handler := fun _ _ => raise (note "replica fell behind")

/-- Panic with a text. -/
def explode : Handler := fun _ _ => .panic (some "handler exploded")

/-- Panic with something that is no text. -/
def explodeSilently : Handler := fun _ _ => .panic none

/-- What is said of a body that could not be received as text. -/
def textBodyFault : BodyFault → Response
  | .tooLong => .plain 413 (BodyFault.message .tooLong)
  | .broken message => .plain 400 (BodyFault.message (.broken message))

/-- Panic with the text in the body. -/
def explodeWithBody : Handler := fun r _ =>
  match receive r.body with
  | .error fault => .response (textBodyFault fault)
  | .ok bytes =>
    match Utf8.decodeText bytes with
    | .ok text => .panic (some text)
    | .error fault =>
      .response (.plain 400 ("Request body didn't contain valid UTF-8: " ++ fault.message))

/-! ## §3. Queries. -/

/-- The field of a number of a kind. -/
def numberField (name : String) (kind : IntegerKind) (update : Int → σ → σ) : Query.Field σ where
  name := name
  read value := ((Numeral.parse kind value).mapError Numeral.Fault.message).map update

/-- The greatest number of rows that may be asked for. -/
def scanLimit : Int := 1000

/-- Answer the limit that was asked for. -/
def scan : Handler := fun r _ =>
  let limit : Except Query.Fault Int := do
    let read ← Query.read [numberField "limit" (.unsigned 32) fun i _ => some i] none r.query
    Query.required "limit" read
  withQuery limit fun limit =>
    if scanLimit < limit then .failure (.badRequest "limit must not exceed 1000")
    else .response (.plain 200 (Decimal.signedText limit))

/-- The page of a table that is asked for, as far as it was read. -/
structure PageQuery where
  limit : Option Int := none
  descending : Option Bool := none
  table : Option String := none

/-- The fields of a page. -/
def pageFields : List (Query.Field PageQuery) := [
  numberField "limit" (.unsigned 8) fun i p => { p with limit := some i },
  { name := "desc"
    read := fun value =>
      match Truth.parse value with
      | some b => .ok fun p => { p with descending := some b }
      | none => .error Truth.faultMessage },
  { name := "table", read := fun value => .ok fun p => { p with table := some value } }]

/-- An optional order, as the page shows it. -/
def orderText : Option Bool → String
  | none => "None"
  | some true => "Some(true)"
  | some false => "Some(false)"

/-- Answer what page was asked for. -/
def page : Handler := fun r _ =>
  let text : Except Query.Fault String := do
    let q ← Query.read pageFields {} r.query
    let limit ← Query.required "limit" q.limit
    let table ← Query.required "table" q.table
    return Decimal.signedText limit ++ " " ++ orderText q.descending ++ " " ++ table
  withQuery text fun text => .response (.plain 200 text)

/-! ## §4. Handlers that answer what they read. -/

/-- Is the number a status? -/
def isStatus (n : Int) : Bool := 100 ≤ n && n ≤ 999

/-- Answer with a status, in plain text. -/
def plain : Handler := fun _ captures =>
  withPlainCaptures (captures.number (.unsigned 16)) fun n =>
    if isStatus n then .response (.plain n.toNat ("plain " ++ Decimal.signedText n))
    else .panic (some "status: InvalidStatusCode")

/-- Answer two numbers. -/
def pair : Handler := fun _ captures =>
  withCaptures (captures.numbers [.unsigned 8, .signed 8]) fun numbers =>
    .response (.plain 200 (String.intercalate " " (numbers.map Decimal.signedText)))

/-- Answer the value in the body. -/
def echo (type : BodyType) : Handler := fun r _ =>
  withBody type r fun v => .plain 200 v.render

/-! ## §5. Routes. -/

/-- **The routes of the service.** -/
def routes : List (Route Handler) := [
  ⟨"/rows", .on "POST" insertRows⟩,
  ⟨"/client/\x7bcode\x7d", .on "GET" clientFailure⟩,
  ⟨"/statement/\x7bcode\x7d", .on "GET" statementFailure⟩,
  ⟨"/sql/\x7bcode\x7d", .on "GET" sqlFailure⟩,
  ⟨"/tables/\x7bname\x7d", ⟨[("GET", table), ("DELETE", dropTable)], none⟩⟩,
  ⟨"/rows/\x7bid\x7d", .on "GET" row⟩,
  ⟨"/scan", .on "GET" scan⟩,
  ⟨"/login", .on "POST" login⟩,
  ⟨"/parse/\x7bvalue\x7d", .on "GET" parseNumber⟩,
  ⟨"/decode", .on "GET" decodeColumn⟩,
  ⟨"/opaque", .on "GET" unknownFailure⟩,
  ⟨"/panic", .on "GET" explode⟩]

/-- **More routes**, for what the service itself has no use for. -/
def moreRoutes : List (Route Handler) := [
  ⟨"/panic/string", .on "POST" explodeWithBody⟩,
  ⟨"/panic/int", .on "GET" explodeSilently⟩,
  ⟨"/plain/\x7bstatus\x7d", .any plain⟩,
  ⟨"/pair/\x7ba\x7d/\x7bb\x7d", .on "GET" pair⟩,
  ⟨"/page", .on "GET" page⟩,
  ⟨"/typed/strict", .on "POST" (echo .strict)⟩,
  ⟨"/typed/tree", ⟨[("POST", echo .tree), ("PUT", echo .tree)], none⟩⟩,
  ⟨"/typed/shapes", .on "POST" (echo .shapes)⟩,
  ⟨"/typed/scores", .on "POST" (echo .scores)⟩]

end ErrorContract.Sample
