/-
  ErrorContract.Envelope.Reader
  ─────────────────────────────
  **READING AN ENVELOPE BACK.**

  A caller that knows the envelope's shape reads it like any other record:
  members in any order, others ignored, a missing message the same as null.
-/
import ErrorContract.Envelope
import ErrorContract.Json.Body

namespace ErrorContract

open Json

/-- The layouts that an envelope is made of. -/
inductive EnvelopeType where
  | envelope | code | message
  deriving Repr, DecidableEq

/-- The layout of an envelope. -/
def Envelope.schema : Schema EnvelopeType
  | .envelope => .record "struct ErrorResponse"
      [⟨"errorCode", .code, .required⟩, ⟨"errorMessage", .message, .nullable⟩] false
  | .code => .integer (.signed 32)
  | .message => .text

/-- The envelope in a value of its layout. -/
def Envelope.ofJson : Value → Option Envelope
  | .object [(_, .int code), (_, .text message)] => some ⟨Int32.ofInt code, some message⟩
  | .object [(_, .int code), (_, .null)] => some ⟨Int32.ofInt code, none⟩
  | _ => none

/-- **Read an envelope.** -/
def Envelope.parse (body : List UInt8) : Except Error Envelope := do
  let v ← readWhole schema (schema .envelope) false body .complete
  match ofJson v with
  | some e => return e
  | none => throw ⟨.expectedValue, none, []⟩

end ErrorContract
