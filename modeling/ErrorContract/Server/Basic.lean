/-
  ErrorContract.Server.Basic
  ──────────────────────────
  **A SERVER AROUND THE ROUTES OF AN APPLICATION.**

  The server adds a health endpoint if it is enabled, answers what no route
  answers with a failure of its own, and lets every answer through the
  boundary.  Then the headers are set that depend on what is sent.
-/
import ErrorContract.Config.Settings
import ErrorContract.Http.Router
import ErrorContract.Server.Boundary
import ErrorContract.Version

namespace ErrorContract

open Http Telemetry

namespace Server

/-! ## §1. Handlers. -/

/-- A handler: what it makes of a request and of what the pattern captured. -/
abbrev Handler := Request → Captures → Outcome

/-- The JSON text that tells that the server is alive. -/
def healthText : String :=
  (Json.Value.object [("status", .text "ok"), ("version", .text version)]).render

/-- The handler of the health endpoint. -/
def health : Handler := fun _ _ => .response (.json 200 healthText)

/-- What becomes of a request whose path no route matches. -/
def notFound (r : Request) : Failure :=
  .notFound ("No handler found for " ++ r.method ++ " " ++ r.path)

/-- What becomes of a request whose method the route does not serve. -/
def methodNotAllowed (r : Request) : Failure :=
  .methodNotAllowed ("Request method '" ++ r.method ++ "' is not supported")

end Server

/-! ## §2. Servers. -/

/-- A server. -/
structure Server where
  routes : List (Registered Server.Handler)
  exposeInternalMessages : Bool
  listenAddress : Net.SocketAddress

namespace Server

/-- Where a server listens that is not told where. -/
def defaultAddress : Net.SocketAddress := ⟨.v4 ⟨0, 0, 0, 0⟩, 3000⟩

/-- The routes that the server adds to those of the application. -/
def ownRoutes (c : Config) : List (Route Handler) :=
  if c.server.health.enabled then [⟨c.server.health.path, .on "GET" health⟩] else []

/-- **Build a server around routes**, unless they conflict. -/
def withRoutes (c : Config) (routes : List (Route Handler)) : Except RouteFault Server := do
  let registered ← registerAll [] (ownRoutes c ++ routes)
  return ⟨registered, c.errors.exposeInternalMessages,
    c.server.listenAddress.getD defaultAddress⟩

/-- Build a server that has nothing but its health endpoint. -/
def bare (c : Config) : Except RouteFault Server := withRoutes c []

/-! ## §3. Answering. -/

/-- How a request ends, and the methods to name if it ends because of its method. -/
def dispatch (s : Server) (r : Request) : Outcome × Option String :=
  match findRoute s.routes r.path with
  | none => (.failure (notFound r), none)
  | some (endpoint, captures) =>
    match endpoint.handler? r.method with
    | some handler => (handler r captures, none)
    | none => (.failure (methodNotAllowed r), endpoint.allowed)

/-- Set the headers that depend on what is sent, and leave out a body that must not be sent. -/
def finish (method : String) (allowed : Option String) (r : Response) : Response :=
  if method = "CONNECT" && isSuccess r.status then { r with body := [] }
  else
    let r := match allowed with
      | some methods => r.withHeader "allow" methods
      | none => r
    let r := r.withHeader "content-length" (Decimal.text r.body.length)
    if method = "HEAD" then { r with body := [] } else r

/-- **Answer a request.** -/
def reply (s : Server) (r : Request) : Reply :=
  let (outcome, allowed) := s.dispatch r
  let (answer, events) := outcome.answer
  let through := boundary s.exposeInternalMessages r.method r.path answer
  ⟨finish r.method allowed through.response, events ++ through.events, through.increments⟩

end Server

end ErrorContract
