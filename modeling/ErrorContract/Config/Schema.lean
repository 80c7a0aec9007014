/-
  ErrorContract.Config.Schema
  ───────────────────────────
  **SETTINGS OUT OF A DOCUMENT.**

  A section of the document is a table whose members are settings.  They are
  looked at in the order of their names; one that the section does not have,
  or one with a value that does not fit, ends the reading at once.  What is
  left out keeps its default.

  A section may also be written as an array of its settings, in the order of
  the schema, the last of them left out.
-/
import ErrorContract.Config.Settings
import ErrorContract.Mismatch
import ErrorContract.Number.Reading
import ErrorContract.Toml.Value
import ErrorContract.Url.Domain
import ErrorContract.Url.Reader

namespace ErrorContract.Schema

open ErrorContract Toml

/-! ## §1. Values by kind. -/

/-- The only name in the table that a date counts as. -/
def momentName : String := "$__toml_private_datetime"

/-- The members of a value that counts as a table. -/
def members? : Toml.Value → Option (List (String × Toml.Value))
  | .table members => some members
  | .datetime text => some [(momentName, .text text)]
  | _ => none

/-- A value as messages name it. -/
def found : Toml.Value → Found
  | .text s => .text s
  | .int i => .int i
  | .float x => .float x
  | .bool b => .bool b
  | .array _ => .sequence
  | .table _ | .datetime _ => .map

/-- What is said of a value of the wrong kind. -/
def wrongKind (v : Toml.Value) (expected : String) : Except Mismatch α :=
  .error (.wrongKind (found v) expected)

/-- Read a truth value. -/
def readBool : Toml.Value → Except Mismatch Bool
  | .bool b => .ok b
  | v => wrongKind v "a boolean"

/-- Read a text. -/
def readText : Toml.Value → Except Mismatch String
  | .text s => .ok s
  | v => wrongKind v "a string"

/-- The whole numbers that may count seconds. -/
def counter : IntegerKind := .unsigned 64

/-- Read a whole number that is not negative. -/
def readCount : Toml.Value → Except Mismatch Nat
  | .int i => (counter.check i).map Int.toNat
  | v => wrongKind v counter.name

/-- Read a floating point number, which may be written as a whole one. -/
def readFloat : Toml.Value → Except Mismatch Float
  | .float x => .ok x
  | .int (.ofNat n) => .ok (Number.nearest n 0)
  | .int (.negSucc n) => .ok (-Number.nearest (n + 1) 0)
  | v => wrongKind v "f64"

/-- Read a socket address. -/
def readAddress : Toml.Value → Except Mismatch Net.SocketAddress
  | .text s =>
    match Net.SocketAddress.parse s with
    | some address => .ok address
    | none => .error (.other Net.SocketAddress.faultMessage)
  | v => wrongKind v "socket address"

/-- Read a URL. Domain names beyond ASCII are read as far as the tables of `Domain` go. -/
def readUrl : Toml.Value → Except Mismatch Url
  | .text s => (Url.parse Domain.toAscii s).mapError fun fault =>
    .other (fault.message ++ ": " ++ Quoted.text s)
  | v => wrongKind v "a string representing an URL"

/-- Read the texts of named values, in their order. -/
def readTexts : List (String × Toml.Value) → Except Mismatch (List (String × String))
  | [] => .ok []
  | (name, v) :: rest => do
    let text ← readText v
    return (name, text) :: (← readTexts rest)

/-- Read a table of texts. -/
def readTextTable (v : Toml.Value) : Except Mismatch (List (String × String)) :=
  match members? v with
  | some members => readTexts members
  | none => wrongKind v "a map"

/-! ## §2. Protocols. -/

/-- The protocols. -/
def protocols : List ExportProtocol := [.grpc, .httpProto]

/-- The protocol with a name. -/
def readProtocolName (name : String) : Except Mismatch ExportProtocol :=
  match protocols.find? fun p => p.name == name with
  | some p => .ok p
  | none => .error (.unknownVariant name (protocols.map ExportProtocol.name))

/-- Check that nothing stands behind the name of a protocol. -/
def readNothing : Toml.Value → Except Mismatch Unit
  | .array [] | .table [] => .ok ()
  | .array _ => .error (.other "expected empty array")
  | .table _ => .error (.other "expected empty table")
  | v => .error (.other ("expected table, found " ++ v.typeName))

/-- Read a protocol: its name, or a table with its name for the only member. -/
def readProtocol : Toml.Value → Except Mismatch ExportProtocol
  | .text name => readProtocolName name
  | .table [(name, v)] => do
    let p ← readProtocolName name
    readNothing v
    return p
  | .table [] => .error (.other "wanted exactly 1 element, found 0 elements")
  | .table _ => .error (.other "wanted exactly 1 element, more than 1 element")
  | _ => .error (.other "wanted string or table")

/-! ## §3. Sections. -/

/-- A setting of a section. -/
structure Setting (σ : Type) where
  name : String
  /-- What a value of the setting makes of what was read so far. -/
  read : Toml.Value → σ → Except Mismatch σ
  /-- May an array end before the setting? -/
  omissible : Bool := true

/-- A section. -/
structure Section (σ : Type) where
  /-- What messages call the section. -/
  title : String
  settings : List (Setting σ)
  /-- What nothing but defaults makes. -/
  defaults : σ

/-- The setting that `update` makes of what `value` reads. -/
def setting (name : String) (value : Toml.Value → Except Mismatch α) (update : α → σ → σ) :
    Setting σ where
  name := name
  read v s := (value v).map (update · s)

/-- The setting with a name. -/
def Section.find? (s : Section σ) (name : String) : Option (Setting σ) :=
  s.settings.find? fun setting => setting.name == name

/-- Read the members of a table, one after the other, into what was read so far. -/
def Section.readMembers (s : Section σ) (sofar : σ) :
    List (String × Toml.Value) → Except Mismatch σ
  | [] => .ok sofar
  | (name, v) :: rest =>
    match s.find? name with
    | none => .error (.unknownField name (s.settings.map Setting.name))
    | some setting => do
      let next ← setting.read v sofar
      s.readMembers next rest

/-- Read the elements of an array as the settings at their places. -/
def readElements (title : String) (size : Nat) (index : Nat) (sofar : σ) :
    List (Setting σ) → List Toml.Value → Except Mismatch σ
  | [], _ => .ok sofar
  | setting :: settings, [] =>
    if setting.omissible then readElements title size (index + 1) sofar settings []
    else .error (.wrongLength index (title ++ " with " ++ elements size))
  | setting :: settings, v :: rest => do
    let next ← setting.read v sofar
    readElements title size (index + 1) next settings rest

/-- **Read a section.** -/
def Section.read (s : Section σ) (v : Toml.Value) : Except Mismatch σ :=
  match members? v, v with
  | some members, _ => s.readMembers s.defaults members
  | none, .array items => readElements s.title s.settings.length 0 s.defaults s.settings items
  | none, v => wrongKind v s.title

/-! ## §4. The sections of a configuration. -/

/-- The health endpoint. -/
def health : Section HealthSettings where
  title := "struct HealthConfig"
  settings :=
    [setting "enabled" readBool fun b s => { s with enabled := b },
      setting "path" readText fun p s => { s with path := p }]
  defaults := {}

/-- Where the server listens, and its health. -/
def server : Section ServerSettings where
  title := "struct ServerConfig"
  settings :=
    [{ setting "listen_address" readAddress fun a s => { s with listenAddress := some a } with
        omissible := false },
      setting "health" health.read fun h s => { s with health := h }]
  defaults := {}

/-- What callers are shown of failures. -/
def errors : Section ErrorSettings where
  title := "struct ErrorsConfig"
  settings :=
    [setting "expose_internal_messages" readBool fun b s => { s with exposeInternalMessages := b }]
  defaults := {}

/-- An exporter of which the endpoint may not have been read yet. -/
structure ExporterDraft where
  endpoint : Option Url := none
  protocol : ExportProtocol := .grpc
  exportInterval : Nat := 30

/-- An exporter. -/
def exporterDraft : Section ExporterDraft where
  title := "struct ExporterConfig"
  settings :=
    [{ setting "endpoint" readUrl fun u s => { s with endpoint := some u } with
        omissible := false },
      setting "protocol" readProtocol fun p s => { s with protocol := p },
      setting "export_interval" readCount fun n s => { s with exportInterval := n }]
  defaults := {}

/-- The exporter of a draft, whose endpoint must not be missing. -/
def ExporterDraft.complete (d : ExporterDraft) : Except Mismatch Exporter :=
  match d.endpoint with
  | some endpoint => .ok ⟨endpoint, d.protocol, d.exportInterval⟩
  | none => .error (.missingField "endpoint")

/-- Read an exporter. -/
def readExporter (v : Toml.Value) : Except Mismatch Exporter := do
  (← exporterDraft.read v).complete

/-- Traces. -/
def tracing : Section TracingSettings where
  title := "struct TracingConfig"
  settings :=
    [setting "sampling_rate" readFloat fun x s => { s with samplingRate := x },
      setting "parent_based" readBool fun b s => { s with parentBased := b },
      setting "exporter" readExporter fun e s => { s with exporter := some e }]
  defaults := {}

/-- Metrics. -/
def metrics : Section MetricsSettings where
  title := "struct MetricsConfig"
  settings := [setting "exporter" readExporter fun e s => { s with exporter := some e }]
  defaults := {}

/-- Telemetry. -/
def telemetry : Section TelemetrySettings where
  title := "struct TelemetryConfig"
  settings :=
    [setting "service_name" readText fun n s => { s with serviceName := n },
      setting "resource_attributes" readTextTable fun a s => { s with resourceAttributes := a },
      setting "exporter" readExporter fun e s => { s with exporter := some e },
      setting "tracing" tracing.read fun t s => { s with tracing := some t },
      setting "metrics" metrics.read fun m s => { s with metrics := some m }]
  defaults := {}

/-- The whole document. -/
def config : Section Config where
  title := "struct Config"
  settings :=
    [setting "server" server.read fun x s => { s with server := x },
      setting "errors" errors.read fun x s => { s with errors := x },
      setting "telemetry" telemetry.read fun x s => { s with telemetry := some x }]
  defaults := {}

end ErrorContract.Schema
