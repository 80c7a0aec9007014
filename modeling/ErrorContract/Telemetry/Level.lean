/-
  ErrorContract.Telemetry.Level
  ─────────────────────────────
  **HOW GRAVE AN EVENT OF THE LOG IS.**

  Levels run from `error`, the gravest, to `trace`.  A verbosity lets events
  pass up to a level, or none at all.
-/
import ErrorContract.Text.Numeral

namespace ErrorContract.Telemetry

open ErrorContract

/-- How grave an event is. -/
inductive Level where
  | error | warn | info | debug | trace
  deriving Repr, DecidableEq

/-- The name of a level. -/
def Level.name : Level → String
  | .error => "error"
  | .warn => "warn"
  | .info => "info"
  | .debug => "debug"
  | .trace => "trace"

/-- The place of a level, the gravest first. -/
def Level.rank : Level → Nat
  | .error => 1
  | .warn => 2
  | .info => 3
  | .debug => 4
  | .trace => 5

/-- The levels, the gravest first. -/
def levels : List Level := [.error, .warn, .info, .debug, .trace]

/-- The least grave level that passes; absent if none does. -/
abbrev Verbosity := Option Level

/-- Does an event of a level pass? -/
def Verbosity.lets (v : Verbosity) (l : Level) : Bool :=
  match v with
  | some most => l.rank ≤ most.rank
  | none => false

/-- The name of the verbosity that lets nothing pass. -/
def silence : String := "off"

/-- The verbosity with a number: nothing for zero, else the level of that place. -/
def verbosityOfNumber (n : Int) : Option Verbosity :=
  if n = 0 then some none else (levels.find? fun l => (l.rank : Int) == n).map some

/-- The verbosity with a name, in letters of either case. -/
def verbosityOfName (name : String) : Option Verbosity :=
  let name := name.toLower
  if name = silence then some none else (levels.find? fun l => l.name == name).map some

/-- The numbers that may name a verbosity. -/
def numberKind : IntegerKind := .unsigned 64

/-- **Read a verbosity**: a name or a number. -/
def readVerbosity (text : String) : Option Verbosity :=
  match Numeral.parse numberKind text with
  | .ok n => (verbosityOfNumber n).or (verbosityOfName text)
  | .error _ => verbosityOfName text

end ErrorContract.Telemetry
