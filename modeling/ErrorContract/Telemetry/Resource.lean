/-
  ErrorContract.Telemetry.Resource
  ────────────────────────────────
  **WHAT THE COLLECTOR IS TOLD OF THE SERVICE.**

  Attributes have names, and a later one replaces an earlier one of the same
  name: what is configured wins over the name and version of the service,
  and those win over what the exporting library says of itself.
-/
import ErrorContract.Config.Settings
import ErrorContract.Version

namespace ErrorContract.Telemetry

open ErrorContract

/-- Named attributes. -/
abbrev Attributes := List (String × String)

/-- Put an attribute in place of the one of its name, or behind the others. -/
def Attributes.put (name value : String) : Attributes → Attributes
  | [] => [(name, value)]
  | (n, v) :: rest => if n = name then (n, value) :: rest else (n, v) :: Attributes.put name value rest

/-- Put attributes one after the other. -/
def Attributes.putAll (base : Attributes) (more : Attributes) : Attributes :=
  more.foldl (fun attributes (name, value) => Attributes.put name value attributes) base

/-- What the exporting library says of itself. -/
def libraryAttributes : Attributes := [
  ("telemetry.sdk.language", "rust"),
  ("telemetry.sdk.name", "opentelemetry"),
  ("telemetry.sdk.version", "0.31.0")]

/-- The name of the attribute with the name of the service. -/
def serviceNameAttribute : String := "service.name"

/-- The name of the attribute with the version of the service. -/
def serviceVersionAttribute : String := "service.version"

/-- The name and version of the service. -/
def serviceAttributes (t : TelemetrySettings) : Attributes :=
  [(serviceNameAttribute, t.serviceName), (serviceVersionAttribute, version)]

/-- **The attributes of a service.** -/
def resource (t : TelemetrySettings) : Attributes :=
  (libraryAttributes.putAll (serviceAttributes t)).putAll t.resourceAttributes

/-- The settings of telemetry that nobody configured: the service has no name. -/
def unconfigured : TelemetrySettings := { serviceName := "" }

end ErrorContract.Telemetry
