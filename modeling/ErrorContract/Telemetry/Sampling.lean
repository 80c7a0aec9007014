/-
  ErrorContract.Telemetry.Sampling
  ────────────────────────────────
  **WHICH TRACES ARE SAMPLED.**

  A share of traces is sampled by their identifiers: the low 63 bits, less
  the last one of 64, must lie below the share of 2^63.  If a span is to
  follow its parent, what was decided for the parent counts, and the share
  only for spans without one.
-/
import ErrorContract.Config.Settings

namespace ErrorContract.Telemetry

open ErrorContract

/-! ## §1. Samplers. -/

/-- How it is decided whether a trace is sampled. -/
inductive Share where
  | all
  | none
  /-- Traces whose number lies below the bound. -/
  | upTo (bound : Nat)
  deriving Repr, DecidableEq

/-- The number of traces that are told apart. -/
def traceNumbers : Float := 9223372036854775808.0

/-- The traces that a rate selects. -/
def Share.ofRate (rate : Float) : Share :=
  if 1.0 ≤ rate then .all
  else if rate ≤ 0.0 then .none
  else .upTo (rate * traceNumbers).toUInt64.toNat

/-- The number that decides about a trace: the low 64 bits of its identifier, less the last. -/
def traceNumber (traceId : Nat) : Nat := traceId % Nat.pow 2 64 / 2

/-- Does a share hold a trace? -/
def Share.holds (traceId : Nat) : Share → Bool
  | .all => true
  | .none => false
  | .upTo bound => traceNumber traceId < bound

/-- A sampler. -/
structure Sampler where
  share : Share
  /-- Does a span follow its parent? -/
  parentBased : Bool
  deriving Repr, DecidableEq

/-- The sampler that settings ask for. -/
def Sampler.ofSettings (t : Option TracingSettings) : Sampler :=
  match t with
  | some t => ⟨.ofRate t.samplingRate, t.parentBased⟩
  | none => ⟨.ofRate 1.0, true⟩

/-! ## §2. Spans. -/

/-- What a span hands on. -/
structure SpanContext where
  traceId : Nat
  sampled : Bool
  deriving Repr, DecidableEq

/-- A span that was started. -/
structure Span where
  context : SpanContext
  /-- Is it recorded? -/
  recording : Bool
  deriving Repr, DecidableEq

/-- Is a span sampled? -/
def Sampler.decide (s : Sampler) (traceId : Nat) (parent : Option SpanContext) : Bool :=
  match parent with
  | some p => if s.parentBased then p.sampled else s.share.holds traceId
  | none => s.share.holds traceId

/-- **Start a span**; without a sampler there is nothing that records it, and it is no more than
its parent. -/
def startSpan (sampler : Option Sampler) (traceId : Nat) (parent : Option SpanContext) : Span :=
  match sampler, parent with
  | some s, some p =>
    let sampled := s.decide p.traceId parent
    ⟨⟨p.traceId, sampled⟩, sampled⟩
  | some s, none =>
    let sampled := s.decide traceId none
    ⟨⟨traceId, sampled⟩, sampled⟩
  | none, some p => ⟨p, false⟩
  | none, none => ⟨⟨0, false⟩, false⟩

end ErrorContract.Telemetry
