/-
  ErrorContract.Envelope
  ──────────────────────
  **THE ONE SHAPE IN WHICH EVERY FAILURE LEAVES THE SERVER.**

      {"errorCode": <int>, "errorMessage": <string or null>}

  An absent message is written `null` and stays apart from the empty one.
-/
import ErrorContract.Json.Writer

namespace ErrorContract

/-- The external error envelope. -/
structure Envelope where
  /-- The vendor's code, or zero where there is none. -/
  errorCode : Int32
  /-- The human-readable message, absent when the failure carried none. -/
  errorMessage : Option String
  deriving Repr, DecidableEq

/-- The envelope as a JSON value, code first. -/
def Envelope.toJson (e : Envelope) : Json.Value :=
  .object [("errorCode", .int e.errorCode.toInt),
    ("errorMessage", (e.errorMessage.map .text).getD .null)]

/-- **The envelope as it is sent**: compact JSON text. -/
def Envelope.text (e : Envelope) : String := e.toJson.render

end ErrorContract
