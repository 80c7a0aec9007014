/-
  ErrorContract.Http.Extract
  ──────────────────────────
  **TAKING A JSON BODY OUT OF A REQUEST.**

  Three checks run in a fixed order, and an earlier one hides what the later
  ones would say: the content type must be JSON, the body must arrive whole
  and within the limit, and it must be readable as the expected value.
-/
import ErrorContract.Http.Message
import ErrorContract.Failure.Basic
import ErrorContract.Json.Body

namespace ErrorContract.Http

open ErrorContract

/-! ## §1. Content type. -/

/-- Is the byte visible ASCII, a space or a tab? -/
def isPrintable (b : UInt8) : Bool := (0x20 ≤ b && b < 0x7f) || b == 0x09

/-- Is the byte one that surrounds a header's value without meaning? -/
def isMargin (b : UInt8) : Bool := b == 0x20 || b == 0x09

/-- The bytes without surrounding spaces and tabs. -/
def trimMargins (bytes : List UInt8) : List UInt8 :=
  ((bytes.dropWhile isMargin).reverse.dropWhile isMargin).reverse

/-- A letter of ASCII as a small one. -/
def lowerByte (b : UInt8) : UInt8 := if 0x41 ≤ b && b ≤ 0x5a then b + 0x20 else b

/-- What a content type names, without parameters, margins and capitals. -/
def essence (value : List UInt8) : List UInt8 :=
  (trimMargins (value.takeWhile (· != 0x3b))).map lowerByte

/-- The media type of JSON. -/
def jsonType : List UInt8 := Utf8.encode "application/json"

/-- How the names of application types begin. -/
def applicationStart : List UInt8 := Utf8.encode "application/"

/-- How the names of types end that are written as JSON. -/
def jsonEnd : List UInt8 := Utf8.encode "+json"

/-- Does the value of a content type name JSON? -/
def namesJson (value : List UInt8) : Bool :=
  value.all isPrintable &&
    (let e := essence value
     e == jsonType || (applicationStart.isPrefixOf e && jsonEnd.isSuffixOf e))

/-- **Does the first content type among the headers name JSON?** -/
def hasJsonType (headers : List Header) : Bool :=
  match header? headers "content-type" with
  | some value => namesJson value
  | none => false

/-! ## §2. The body. -/

/-- The greatest number of bytes in a body. -/
def bodyLimit : Nat := 2097152

/-- Why a body could not be received. -/
inductive BodyFault where
  | tooLong
  | broken (message : String)
  deriving Repr, DecidableEq

/-- A fault in words. -/
def BodyFault.message : BodyFault → String
  | .tooLong => "Failed to buffer the request body: length limit exceeded"
  | .broken message => "Failed to buffer the request body: " ++ message

/-- The whole body, if it arrives and is not too long. -/
def receive : Payload → Except BodyFault (List UInt8)
  | .complete bytes => if bodyLimit < bytes.length then .error .tooLong else .ok bytes
  | .broken message => .error (.broken message)

/-- What is said of a request whose content type is not JSON. -/
def wrongTypeMessage : String := "Expected request with `Content-Type: application/json`"

/-- **The value in the body of a request**, or the failure of finding none. -/
def extractJson (schema : Json.Schema τ) (layout : Json.Layout τ) (headers : List Header)
    (payload : Payload) : Except Failure Json.Value :=
  if hasJsonType headers then
    match receive payload with
    | .error fault => .error (.badRequest fault.message)
    | .ok body => (Json.parseBody schema layout body).mapError .unreadableBody
  else .error (.unsupportedMediaType wrongTypeMessage)

end ErrorContract.Http
