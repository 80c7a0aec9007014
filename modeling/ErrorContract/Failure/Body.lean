/-
  ErrorContract.Failure.Body
  ──────────────────────────
  **REQUEST BODIES THAT COULD NOT BE READ.**

  A body fails either because it is not JSON at all (`malformed`), or because
  it is JSON of the wrong shape (`mapping`, which knows where), or for a
  reason that is neither (`unknown`).  `clientMessage` says what the caller
  is told: where a mapping failed beats why.
-/
import ErrorContract.Failure.Path

namespace ErrorContract

/-- What went wrong underneath an unreadable body. -/
inductive BodyCause where
  /-- The JSON was read but did not fit the expected type. -/
  | mapping (path : Path) (message : String)
  /-- The body is not well-formed JSON. -/
  | malformed (message : String)
  /-- No JSON failure could be identified. -/
  | unknown
  deriving Repr, DecidableEq

/-- A request body that could not be turned into the expected value. -/
structure UnreadableBody where
  /-- Outer message, which describes the failure to read. -/
  message : String
  /-- The JSON failure underneath. -/
  cause : BodyCause
  deriving Repr, DecidableEq

namespace UnreadableBody

/-- A body failure caused by a mapping problem: outer and inner message are the same. -/
def ofMapping (path : Path) (message : String) : UnreadableBody :=
  ⟨message, .mapping path message⟩

/-- A body failure caused by malformed JSON: outer and inner message are the same. -/
def ofMalformed (message : String) : UnreadableBody := ⟨message, .malformed message⟩

/-- **The message shown to the caller**: the place of a mapping failure if it
is known, else the failure's own message. -/
def clientMessage (body : UnreadableBody) : String :=
  match body.cause with
  | .mapping [] message => message
  | .mapping path _ => path.describe
  | .malformed message => message
  | .unknown => body.message

end UnreadableBody

end ErrorContract
