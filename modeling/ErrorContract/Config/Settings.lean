/-
  ErrorContract.Config.Settings
  ─────────────────────────────
  **THE SETTINGS OF A SERVER, AND WHEN THEY MAKE SENSE.**

  Every setting has a default but the endpoint of an exporter.  Settings that
  are read are checked once, so that whoever is given a `Config` that passed
  `validate` can rely on an absolute health path and a sampling rate between
  zero and one.
-/
import ErrorContract.Net.Address
import ErrorContract.Number.Shortest
import ErrorContract.Url.Basic

namespace ErrorContract

/-! ## §1. Listening and answering. -/

/-- The endpoint that tells whether the server is alive. -/
structure HealthSettings where
  enabled : Bool := true
  path : String := "/health"
  deriving Repr, DecidableEq

/-- Where the server listens, and its health. -/
structure ServerSettings where
  /-- The address to listen on, if one is given. -/
  listenAddress : Option Net.SocketAddress := none
  health : HealthSettings := {}
  deriving Repr, DecidableEq

/-- What callers are shown of failures. -/
structure ErrorSettings where
  /-- Are the messages of server errors sent as they are? -/
  exposeInternalMessages : Bool := true
  deriving Repr, DecidableEq

/-! ## §2. Telemetry. -/

/-- How telemetry is sent. -/
inductive ExportProtocol where
  | grpc
  | httpProto
  deriving Repr, DecidableEq

/-- The name of a protocol. -/
def ExportProtocol.name : ExportProtocol → String
  | .grpc => "grpc"
  | .httpProto => "http_proto"

/-- Where telemetry is sent. -/
structure Exporter where
  endpoint : Url
  protocol : ExportProtocol := .grpc
  /-- Seconds between two exports of metrics. -/
  exportInterval : Nat := 30
  deriving Repr, DecidableEq

/-- Settings of traces. -/
structure TracingSettings where
  /-- The share of traces that are sampled. -/
  samplingRate : Float := 1.0
  /-- Does a span follow the decision that was taken for its parent? -/
  parentBased : Bool := true
  exporter : Option Exporter := none
  deriving Repr

/-- Settings of metrics. -/
structure MetricsSettings where
  exporter : Option Exporter := none
  deriving Repr, DecidableEq

/-- Settings of telemetry. -/
structure TelemetrySettings where
  serviceName : String := "dbfront"
  /-- More attributes of the service, no two of one name. -/
  resourceAttributes : List (String × String) := []
  /-- Where traces and metrics go that have no exporter of their own. -/
  exporter : Option Exporter := none
  tracing : Option TracingSettings := none
  metrics : Option MetricsSettings := none
  deriving Repr

/-- Is there any exporter? -/
def TelemetrySettings.hasExporter (t : TelemetrySettings) : Bool :=
  t.exporter.isSome || (t.tracing.bind (·.exporter)).isSome || (t.metrics.bind (·.exporter)).isSome

/-! ## §3. All of them. -/

/-- The settings of a server. -/
structure Config where
  server : ServerSettings := {}
  errors : ErrorSettings := {}
  telemetry : Option TelemetrySettings := none
  deriving Repr

namespace Config

/-- Why settings make no sense. -/
inductive Fault where
  /-- The health endpoint has a path that is not absolute. -/
  | relativeHealthPath (path : String)
  /-- The sampling rate is no number between zero and one. -/
  | samplingRate (rate : Float)
  deriving Repr

/-- A fault in words. -/
def Fault.message : Fault → String
  | .relativeHealthPath path => "server.health.path must start with '/': `" ++ path ++ "`"
  | .samplingRate rate =>
    "telemetry.tracing.sampling_rate must be between 0.0 and 1.0, got " ++
      Number.plainStyle.text rate

/-- Is the path one that begins at the root? -/
def isAbsolute (path : String) : Bool := path.toList.head? == some '/'

/-- Is the number a share? No comparison holds of what is not a number. -/
def isShare (rate : Float) : Bool := decide (0.0 ≤ rate) && decide (rate ≤ 1.0)

/-- The sampling rate, if traces are configured. -/
def samplingRate? (c : Config) : Option Float :=
  (c.telemetry.bind (·.tracing)).map TracingSettings.samplingRate

/-- Check the health endpoint. -/
def validateHealth (c : Config) : Except Fault Unit :=
  if c.server.health.enabled && !isAbsolute c.server.health.path then
    .error (.relativeHealthPath c.server.health.path)
  else .ok ()

/-- Check the settings of traces. -/
def validateTracing (c : Config) : Except Fault Unit :=
  match c.samplingRate? with
  | some rate => if isShare rate then .ok () else .error (.samplingRate rate)
  | none => .ok ()

/-- **Check settings**, those of the health endpoint first. -/
def validate (c : Config) : Except Fault Unit := do
  c.validateHealth
  c.validateTracing

end Config

end ErrorContract
