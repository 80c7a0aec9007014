/-
  ErrorContract.Telemetry.Export
  ──────────────────────────────
  **WHERE TELEMETRY GOES, AND HOW IT IS SET UP.**

  Metrics and traces each go to an exporter of their own, or else to the one
  they share.  The exporter of metrics is built first; the first that cannot
  be built ends the set-up.
-/
import ErrorContract.Net.Uri
import ErrorContract.Telemetry.Sampling

namespace ErrorContract.Telemetry

open ErrorContract

/-! ## §1. Exporters. -/

/-- The exporter of metrics. -/
def metricsExporter (t : TelemetrySettings) : Option Exporter :=
  (t.metrics.bind (·.exporter)).or t.exporter

/-- The exporter of traces. -/
def tracingExporter (t : TelemetrySettings) : Option Exporter :=
  (t.tracing.bind (·.exporter)).or t.exporter

/-- What is exported. -/
inductive Signal where
  | metrics
  | traces
  deriving Repr, DecidableEq

/-- The exporter of a signal, in words. -/
def Signal.exporterName : Signal → String
  | .metrics => "metrics exporter"
  | .traces => "span exporter"

/-- A protocol, in words. -/
def protocolTitle : ExportProtocol → String
  | .grpc => "gRPC"
  | .httpProto => "HTTP"

/-- An exporter that cannot be built, because its endpoint cannot be requested. -/
structure SetupFault where
  signal : Signal
  protocol : ExportProtocol
  deriving Repr, DecidableEq

/-- A fault in words, but for what is wrong with the endpoint. -/
def SetupFault.message (fault : SetupFault) : String :=
  "failed to build " ++ protocolTitle fault.protocol ++ " " ++ fault.signal.exporterName

/-- Check that an exporter can be built. -/
def check (signal : Signal) (e : Exporter) : Except SetupFault Unit :=
  if Net.Uri.isValid e.endpoint.text then .ok () else .error ⟨signal, e.protocol⟩

/-- Check that an exporter can be built if there is one. -/
def checkAny (signal : Signal) : Option Exporter → Except SetupFault Unit
  | some e => check signal e
  | none => .ok ()

/-! ## §2. Set-up. -/

/-- The sampler of traces; none if traces go nowhere. -/
def sampler (t : TelemetrySettings) : Option Sampler :=
  (tracingExporter t).map fun _ => .ofSettings t.tracing

/-- **Set telemetry up**: the sampler of traces, if they go anywhere. -/
def setUp : Option TelemetrySettings → Except SetupFault (Option Sampler)
  | none => .ok none
  | some t => do
    checkAny .metrics (metricsExporter t)
    checkAny .traces (tracingExporter t)
    return sampler t

end ErrorContract.Telemetry
