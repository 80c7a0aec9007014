/-
  ErrorContract.Failure.Basic
  ───────────────────────────
  **EVERY FAILURE THAT CAN REACH THE BOUNDARY OF THE API.**

  A failure is one of twelve variants, and its variant is its category: what
  the log and the counter call it.  `answer` gives the status and the
  envelope that the caller receives; it depends on the failure alone.
-/
import ErrorContract.Vendor
import ErrorContract.Failure.Body
import ErrorContract.Envelope

namespace ErrorContract

/-! ## §1. The taxonomy. -/

/-- Flavour of an internal failure whose message is still worth showing. -/
inductive InternalKind where
  /-- Text could not be encoded or decoded. -/
  | encoding
  /-- Data that did not come from the request failed to parse. -/
  | parse
  /-- Any other internal condition. -/
  | general
  deriving Repr, DecidableEq

/-- The category of a failure, as the log and the counter name it. -/
inductive Category where
  | unclassified | badRequest | unauthorized | notFound | conflict | unsupportedMediaType
  | methodNotAllowed | unreadableBody | internal | sql | client | statement
  deriving Repr, DecidableEq

/-- The name of a category. -/
def Category.name : Category → String
  | .unclassified => "unclassified"
  | .badRequest => "bad_request"
  | .unauthorized => "unauthorized"
  | .notFound => "not_found"
  | .conflict => "conflict"
  | .unsupportedMediaType => "unsupported_media_type"
  | .methodNotAllowed => "method_not_allowed"
  | .unreadableBody => "unreadable_body"
  | .internal => "internal"
  | .sql => "sql"
  | .client => "client"
  | .statement => "statement"

/-- Every failure that can reach the boundary. -/
inductive Failure where
  /-- The request body could not be read as the expected JSON. -/
  | unreadableBody (body : UnreadableBody)
  /-- The database client failed to execute a statement. -/
  | statement (error : StatementError)
  /-- The database client failed otherwise. -/
  | client (error : ClientError)
  /-- The SQL layer failed, with a vendor code. -/
  | sql (error : SqlError)
  /-- The caller is not authenticated. -/
  | unauthorized (message : String)
  /-- The requested resource does not exist. -/
  | notFound (message : String)
  /-- The request conflicts with the current state of the resource. -/
  | conflict (message : String)
  /-- A malformed argument, a failed cast or an unusable request. -/
  | badRequest (message : String)
  /-- The content type of the request is not accepted. -/
  | unsupportedMediaType (message : String)
  /-- The route exists, but not for this method. -/
  | methodNotAllowed (message : String)
  /-- An internal failure whose message still means something to callers. -/
  | internal (kind : InternalKind) (message : String)
  /-- Anything else. -/
  | unclassified (message : Option String)
  deriving Repr, DecidableEq

namespace Failure

/-- The fallback failure: an empty message counts as absent. -/
def ofText (message : String) : Failure :=
  .unclassified (if message.isEmpty then none else some message)

/-! ## §2. What a failure says of itself. -/

/-- The category of a failure is its variant. -/
def category : Failure → Category
  | .unreadableBody _ => .unreadableBody
  | .statement _ => .statement
  | .client _ => .client
  | .sql _ => .sql
  | .unauthorized _ => .unauthorized
  | .notFound _ => .notFound
  | .conflict _ => .conflict
  | .badRequest _ => .badRequest
  | .unsupportedMediaType _ => .unsupportedMediaType
  | .methodNotAllowed _ => .methodNotAllowed
  | .internal _ _ => .internal
  | .unclassified _ => .unclassified

/-- The failure's own text, as the log shows it; empty for an absent message. -/
def detail : Failure → String
  | .unreadableBody body => body.message
  | .statement error => error.message
  | .client error => error.message
  | .sql error => error.message
  | .unauthorized message | .notFound message | .conflict message | .badRequest message
  | .unsupportedMediaType message | .methodNotAllowed message => message
  | .internal _ message => message
  | .unclassified message => message.getD ""

/-! ## §3. What the caller receives. -/

/-- The status of a failure. -/
def status : Failure → Status
  | .statement error => error.status
  | .client error => error.status
  | .unreadableBody _ | .sql _ | .badRequest _ => 400
  | .unauthorized _ => 401
  | .notFound _ => 404
  | .conflict _ => 409
  | .unsupportedMediaType _ => 415
  | .methodNotAllowed _ => 405
  | .internal _ _ | .unclassified _ => 500

/-- The code in the envelope: the vendor's, or zero where there is none. -/
def errorCode : Failure → Int32
  | .statement error => error.code
  | .client error => error.code
  | .sql error => error.vendorCode
  | _ => 0

/-- The message in the envelope. -/
def clientMessage : Failure → Option String
  | .unreadableBody body => some body.clientMessage
  | .unclassified message => message
  | failure => some failure.detail

/-- The envelope of a failure. -/
def envelope (failure : Failure) : Envelope := ⟨failure.errorCode, failure.clientMessage⟩

/-- **What the caller receives**: a status and a fresh envelope. -/
def answer (failure : Failure) : Status × Envelope := (failure.status, failure.envelope)

end Failure

end ErrorContract
