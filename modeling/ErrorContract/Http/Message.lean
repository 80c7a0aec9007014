/-
  ErrorContract.Http.Message
  ──────────────────────────
  **REQUESTS AND RESPONSES.**

  A request names a path and possibly a query; its body may break off while
  it is received.  Header names are compared without regard to case.
-/
import ErrorContract.Text.Utf8
import ErrorContract.Vendor

namespace ErrorContract.Http

open ErrorContract

/-! ## §1. Requests. -/

/-- What is received as the body of a request. -/
inductive Payload where
  /-- All of it. -/
  | complete (bytes : List UInt8)
  /-- Some of it, and then the connection failed. -/
  | broken (message : String)
  deriving Repr

/-- A header of a request: its value need not be text. -/
structure Header where
  name : String
  value : List UInt8
  deriving Repr, DecidableEq

/-- A request. -/
structure Request where
  method : String
  /-- The path as it was sent, nothing decoded. -/
  path : String
  /-- What follows the question mark, if there is one. -/
  query : Option String
  headers : List Header
  body : Payload
  deriving Repr

/-- Path and query of the target of a request; a fragment is dropped. -/
def splitTarget (target : String) : String × Option String :=
  let cs := target.toList.takeWhile (· != '#')
  let (path, rest) := cs.span (· != '?')
  let path := if path.isEmpty then ['/'] else path
  (String.ofList path, match rest with
    | [] => none
    | _ :: query => some (String.ofList query))

/-- The value of the first header with a name, given in small letters. -/
def header? (headers : List Header) (name : String) : Option (List UInt8) :=
  (headers.find? fun h => h.name.toLower == name).map Header.value

/-! ## §2. Responses. -/

/-- A response. -/
structure Response where
  status : Status
  /-- Names in small letters, and values. -/
  headers : List (String × String)
  body : List UInt8
  deriving Repr

/-- A response of plain text. -/
def Response.plain (status : Status) (text : String) : Response :=
  ⟨status, [("content-type", "text/plain; charset=utf-8")], Utf8.encode text⟩

/-- A response of JSON text. -/
def Response.json (status : Status) (text : String) : Response :=
  ⟨status, [("content-type", "application/json")], Utf8.encode text⟩

/-- Is there a header with this name? -/
def Response.has (r : Response) (name : String) : Bool := r.headers.any (·.1 == name)

/-- A response with a header more, unless it has one of that name. -/
def Response.withHeader (r : Response) (name value : String) : Response :=
  if r.has name then r else { r with headers := r.headers ++ [(name, value)] }

/-- Is a status one of a server error? -/
def isServerError (status : Status) : Bool := 500 ≤ status && status < 600

/-- Is a status one of success? -/
def isSuccess (status : Status) : Bool := 200 ≤ status && status < 300

end ErrorContract.Http
