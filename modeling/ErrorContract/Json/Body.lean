/-
  ErrorContract.Json.Body
  ───────────────────────
  **READING A REQUEST BODY.**

  `parseBody` reads one value of a layout and demands that nothing but
  blanks follow.  What goes wrong becomes an `UnreadableBody`: a wrong shape
  a mapping failure with the way to the offending value, a fault of form or
  a body that ends too early a malformed body, and a body that broke off
  while it was received a failure whose cause is unknown.
-/
import ErrorContract.Json.Reader
import ErrorContract.Failure.Body

namespace ErrorContract.Json

open ErrorContract

/-! ## §1. Whole bodies. -/

/-- Run a reader from the beginning of a body. -/
def run (read : Read α) (body : List UInt8) (ending : Ending) : Except Error α :=
  match read (.start body ending) with
  | .ok a _ => .ok a
  | .error e _ => .error e

/-- Read one value at the beginning of a body. -/
def readFront (schema : Schema τ) (layout : Layout τ) (tracked : Bool) (body : List UInt8)
    (ending : Ending) : Except Error Value :=
  run (readAt schema ⟨body.length, tracked⟩ depthLimit layout) body ending

/-- Read a body that holds one value and nothing else. -/
def readWhole (schema : Schema τ) (layout : Layout τ) (tracked : Bool) (body : List UInt8)
    (ending : Ending) : Except Error Value :=
  run (do
    let v ← readAt schema ⟨body.length, tracked⟩ depthLimit layout
    finish
    return v) body ending

/-! ## §2. Unreadable bodies. -/

/-- An error as the failure to read a body. -/
def Error.unreadable (body : List UInt8) (e : Error) : UnreadableBody :=
  let message := e.message body
  match e.fault.kind with
  | .mismatch => .ofMapping e.path message
  | .malformed | .ended => .ofMalformed message
  | .brokenOff => ⟨message, .unknown⟩

/-- **Read a body, or say why it is unreadable and where.** -/
def parseBody (schema : Schema τ) (layout : Layout τ) (body : List UInt8) :
    Except UnreadableBody Value :=
  (readWhole schema layout true body .complete).mapError (Error.unreadable body)

/-- Read a body without keeping track of the way to each value. -/
def parsePlain (schema : Schema τ) (layout : Layout τ) (body : List UInt8) :
    Except UnreadableBody Value :=
  (readWhole schema layout false body .complete).mapError (Error.unreadable body)

/-- Read the value at the front of a body, whatever follows it. -/
def parseFront (schema : Schema τ) (layout : Layout τ) (body : List UInt8) :
    Except UnreadableBody Value :=
  (readFront schema layout true body .complete).mapError (Error.unreadable body)

/-- Read a body that broke off while it was received. -/
def parseBroken (schema : Schema τ) (layout : Layout τ) (body : List UInt8) (message : String) :
    Except UnreadableBody Value :=
  (readWhole schema layout false body (.brokenOff message)).mapError (Error.unreadable body)

end ErrorContract.Json
