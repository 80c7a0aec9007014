import ErrorContract.CommandLine.Arguments
import ErrorContract.CommandLine.Startup
import ErrorContract.Config.Environment
import ErrorContract.Config.Load
import ErrorContract.Config.Schema
import ErrorContract.Config.Settings
import ErrorContract.Config.Template
import ErrorContract.Envelope
import ErrorContract.Envelope.Reader
import ErrorContract.Failure.Basic
import ErrorContract.Failure.Body
import ErrorContract.Failure.Classify
import ErrorContract.Failure.Path
import ErrorContract.Failure.Raised
import ErrorContract.Http.Captures
import ErrorContract.Http.Extract
import ErrorContract.Http.Message
import ErrorContract.Http.Pattern
import ErrorContract.Http.Query
import ErrorContract.Http.Router
import ErrorContract.Json.Body
import ErrorContract.Json.Cursor
import ErrorContract.Json.Fault
import ErrorContract.Json.Kept
import ErrorContract.Json.Layout
import ErrorContract.Json.Number
import ErrorContract.Json.Reader
import ErrorContract.Json.Skip
import ErrorContract.Json.Text
import ErrorContract.Json.Value
import ErrorContract.Json.Writer
import ErrorContract.Main
import ErrorContract.Mismatch
import ErrorContract.Net.Address
import ErrorContract.Net.Uri
import ErrorContract.Number.Reading
import ErrorContract.Number.Shortest
import ErrorContract.Sample.Bodies
import ErrorContract.Sample.Service
import ErrorContract.Server.Basic
import ErrorContract.Server.Boundary
import ErrorContract.Telemetry.Counter
import ErrorContract.Telemetry.Export
import ErrorContract.Telemetry.Level
import ErrorContract.Telemetry.LogFilter
import ErrorContract.Telemetry.Resource
import ErrorContract.Telemetry.Sampling
import ErrorContract.Text.Blank
import ErrorContract.Text.Decimal
import ErrorContract.Text.Front
import ErrorContract.Text.Numeral
import ErrorContract.Text.Percent
import ErrorContract.Text.Pieces
import ErrorContract.Text.Quoted
import ErrorContract.Text.Radix
import ErrorContract.Text.Unprintable
import ErrorContract.Text.Utf8
import ErrorContract.Text.Words
import ErrorContract.Toml.Reader
import ErrorContract.Toml.Scalar
import ErrorContract.Toml.Table
import ErrorContract.Toml.Text
import ErrorContract.Toml.Value
import ErrorContract.Url.Basic
import ErrorContract.Url.Domain
import ErrorContract.Url.Host
import ErrorContract.Url.Punycode
import ErrorContract.Url.Reader
import ErrorContract.Vendor
import ErrorContract.Version
import ErrorContract.Proofs.VisibleLayers
import ErrorContract.Proofs.Classification
import ErrorContract.Proofs.Specificity
import ErrorContract.Proofs.Hiding
import ErrorContract.Proofs.Grammar
import ErrorContract.Proofs.Verdict
import ErrorContract.Proofs.MeetsVerdict
import ErrorContract.Proofs.Tokens
import ErrorContract.Proofs.Skipping
import ErrorContract.Proofs.Reading
import ErrorContract.Proofs.Offender
import ErrorContract.Proofs.Encoding
import ErrorContract.Proofs.Expansion
import ErrorContract.Proofs.EnvelopeReading
import ErrorContract.Proofs.Tally
import ErrorContract.Proofs.Accounting
import ErrorContract.Proofs.Accepted
import ErrorContract.Proofs.Contract
import ErrorContract.Proofs.Tracking
import ErrorContract.Proofs.Routable
import ErrorContract.Proofs.Enveloped
import ErrorContract.Proofs.Culprit
import ErrorContract.Proofs.Transparency
import ErrorContract.Proofs.Comparison
import ErrorContract.Proofs.Locality
import ErrorContract.Proofs.Continuation
import ErrorContract.Proofs.Numerals
import ErrorContract.Proofs.ReadingScalars
import ErrorContract.Proofs.LayoutDemands
import ErrorContract.Proofs.Misread
import ErrorContract.Proofs.Extraction
import ErrorContract.Proofs.Sections
import ErrorContract.Proofs.Described
import ErrorContract.Proofs.Vetted
import ErrorContract.Proofs.Omitted
import ErrorContract.Proofs.MediaType
import ErrorContract.Proofs.Matching
import ErrorContract.Proofs.Registration
import ErrorContract.Proofs.Unanswered
import ErrorContract.Proofs.HealthFrame
import ErrorContract.Proofs.Commanded
import ErrorContract.Proofs.Precedence
import ErrorContract.Proofs.Lookup
import ErrorContract.Proofs.Distinct
import ErrorContract.Proofs.Attributes
import ErrorContract.Proofs.Positions
import ErrorContract.Proofs.Spelling
import ErrorContract.Proofs.EnvelopeMembers
import ErrorContract.Proofs.RoundTrip
import ErrorContract.Proofs.Produced
import ErrorContract.Proofs.Regex
import ErrorContract.Proofs.Unambiguous
import ErrorContract.Proofs.AsciiUrls
