/-
  ErrorContract.Server.Boundary
  ─────────────────────────────
  **THE BOUNDARY THAT EVERY FAILURE LEAVES THROUGH.**

  A handler ends with a response of its own, with a failure, or in a panic,
  which becomes the fallback failure.  A failure is answered by a response
  that still knows which failure it answers, also after the application has
  given it another status or body.  The boundary logs and counts it once,
  and hides the message of a server error if it is told to; responses that
  handlers made themselves pass it untouched.
-/
import ErrorContract.Failure.Basic
import ErrorContract.Http.Message
import ErrorContract.Telemetry.Counter
import ErrorContract.Telemetry.Level

namespace ErrorContract.Server

open ErrorContract Http Telemetry

/-! ## §1. How handlers end. -/

/-- How a handler ends. -/
inductive Outcome where
  /-- With a response of its own. -/
  | response (r : Response)
  /-- With a failure. -/
  | failure (f : Failure)
  /-- With what the application made of the response to a failure. -/
  | altered (r : Response) (f : Failure)
  /-- In a panic, whose message is absent if it is no text. -/
  | panic (message : Option String)
  deriving Repr

/-- What a value or a failure in its stead ends with. -/
def Outcome.ofExcept (respond : α → Response) : Except Failure α → Outcome
  | .ok a => .response (respond a)
  | .error f => .failure f

/-! ## §2. What is logged. -/

/-- What is logged of a request that failed. -/
structure Report where
  method : String
  path : String
  status : Status
  /-- The code in the envelope. -/
  errorCode : Int32
  category : Category
  /-- The failure's own text, even where the caller is not shown it. -/
  error : String
  deriving Repr, DecidableEq

/-- An event of the log. -/
inductive Event where
  /-- A handler panicked. -/
  | panicked (message : String)
  /-- A request failed through a fault of the server. -/
  | failed (report : Report)
  /-- A request was rejected. -/
  | rejected (report : Report)
  deriving Repr, DecidableEq

/-- The level of an event. -/
def Event.level : Event → Level
  | .panicked _ => .error
  | .failed _ => .warn
  | .rejected _ => .debug

/-- The text of an event. -/
def Event.message : Event → String
  | .panicked _ => "handler panicked"
  | .failed _ => "request failed"
  | .rejected _ => "request rejected"

/-- The part of the server that logs these events. -/
def Event.target : String := "dbfront_server::boundary"

/-! ## §3. Failures as responses. -/

/-- What a response keeps of the failure that it answers. -/
structure Trace where
  category : Category
  errorCode : Int32
  detail : String
  deriving Repr, DecidableEq

/-- What is kept of a failure. -/
def Trace.ofFailure (f : Failure) : Trace := ⟨f.category, f.envelope.errorCode, f.detail⟩

/-- A response, and what it keeps of the failure that it answers if it does. -/
structure Answer where
  response : Response
  trace : Option Trace
  deriving Repr

/-- The response that carries an envelope. -/
def envelopeResponse (status : Status) (envelope : Envelope) : Response :=
  .json status envelope.text

/-- **The answer to a failure.** -/
def Answer.ofFailure (f : Failure) : Answer :=
  let (status, envelope) := f.answer
  ⟨envelopeResponse status envelope, some (.ofFailure f)⟩

/-- The answer of a handler, and what is logged before the boundary sees it. -/
def Outcome.answer : Outcome → Answer × List Event
  | .response r => (⟨r, none⟩, [])
  | .failure f => (.ofFailure f, [])
  | .altered r f => (⟨r, some (.ofFailure f)⟩, [])
  | .panic message =>
    let text := message.getD ""
    (.ofFailure (.ofText text), [.panicked text])

/-! ## §4. The boundary. -/

/-- What is sent in the stead of a message that is hidden. -/
def genericMessage : String := "internal server error"

/-- What leaves the server for one request: a response, and what was logged and counted. -/
structure Reply where
  response : Response
  events : List Event
  increments : List Increment
  deriving Repr

/-- What is logged of a response to a failure. -/
def report (method path : String) (status : Status) (t : Trace) : Event :=
  let report : Report := ⟨method, path, status, t.errorCode, t.category, t.detail⟩
  if isServerError status then .failed report else .rejected report

/-- The response to a failure as it is sent. -/
def redact (expose : Bool) (r : Response) (t : Trace) : Response :=
  if isServerError r.status && !expose then
    envelopeResponse r.status ⟨t.errorCode, some genericMessage⟩
  else r

/-- **Let an answer through the boundary.** -/
def boundary (expose : Bool) (method path : String) (a : Answer) : Reply :=
  match a.trace with
  | none => ⟨a.response, [], []⟩
  | some t =>
    ⟨redact expose a.response t, [report method path a.response.status t],
      [⟨a.response.status, t.category.name⟩]⟩

end ErrorContract.Server
