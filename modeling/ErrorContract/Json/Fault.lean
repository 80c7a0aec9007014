/-
  ErrorContract.Json.Fault
  ────────────────────────
  **WHAT CAN BE WRONG WITH A JSON TEXT.**

  A fault is of one of four kinds: the text ends too early, the text is not
  JSON, the text is JSON of the wrong shape, or the text broke off while it
  was being received.  An error is a fault together with where it was met
  and, for a reader that keeps track, on the way to which value.
-/
import ErrorContract.Mismatch
import ErrorContract.Failure.Path
import ErrorContract.Json.Writer

namespace ErrorContract.Json

open ErrorContract

/-! ## §1. Faults. -/

/-- What is wrong with a JSON text. -/
inductive Fault where
  | endInList | endInObject | endInString | endInValue
  | expectedColon | expectedListCommaOrEnd | expectedObjectCommaOrEnd | expectedIdent
  | expectedValue | expectedQuote | expectedNumericKey | invalidEscape | invalidNumber
  | numberOutOfRange | invalidCodePoint | controlCharacter | keyMustBeString | loneSurrogate
  | endOfEscape | trailingComma | trailingCharacters | recursionLimit
  /-- Well-formed, but of the wrong shape. -/
  | mismatch (m : Mismatch)
  /-- The text broke off. -/
  | brokenOff (message : String)
  deriving Repr

/-- The kinds of faults. -/
inductive FaultKind where
  /-- The text ends too early. -/
  | ended
  /-- The text is not JSON. -/
  | malformed
  /-- The text has the wrong shape. -/
  | mismatch
  /-- The text broke off. -/
  | brokenOff
  deriving Repr, DecidableEq

/-- The kind of a fault. -/
def Fault.kind : Fault → FaultKind
  | .endInList | .endInObject | .endInString | .endInValue => .ended
  | .mismatch _ => .mismatch
  | .brokenOff _ => .brokenOff
  | _ => .malformed

/-- A fault in words. -/
def Fault.message : Fault → String
  | .endInList => "EOF while parsing a list"
  | .endInObject => "EOF while parsing an object"
  | .endInString => "EOF while parsing a string"
  | .endInValue => "EOF while parsing a value"
  | .expectedColon => "expected `:`"
  | .expectedListCommaOrEnd => "expected `,` or `]`"
  | .expectedObjectCommaOrEnd => "expected `,` or `\x7d`"
  | .expectedIdent => "expected ident"
  | .expectedValue => "expected value"
  | .expectedQuote => "expected `\"`"
  | .expectedNumericKey => "invalid value: expected key to be a number in quotes"
  | .invalidEscape => "invalid escape"
  | .invalidNumber => "invalid number"
  | .numberOutOfRange => "number out of range"
  | .invalidCodePoint => "invalid unicode code point"
  | .controlCharacter => "control character (\\u0000-\\u001F) found while parsing a string"
  | .keyMustBeString => "key must be a string"
  | .loneSurrogate => "lone leading surrogate in hex escape"
  | .endOfEscape => "unexpected end of hex escape"
  | .trailingComma => "trailing comma"
  | .trailingCharacters => "trailing characters"
  | .recursionLimit => "recursion limit exceeded"
  | .mismatch m => m.message floatStyle
  | .brokenOff message => message

/-! ## §2. Errors. -/

/-- The way to the value in which a fault was met; a member whose name could not be read is a
step without a name. -/
abbrev Trail := List (Option PathSegment)

/-- A fault and where it was met. -/
structure Error where
  fault : Fault
  /-- How many bytes had been looked at, if the fault has a place in the text. -/
  offset : Option Nat
  /-- The way to the value in which the fault was met. -/
  trail : Trail
  deriving Repr

/-- The steps of the trail that are known. -/
def Error.path (e : Error) : Path := e.trail.filterMap id

/-- Line and column of the place after the first `offset` bytes: lines count from one, columns
count the bytes since the last line feed. -/
def lineColumn (text : List UInt8) (offset : Nat) : Nat × Nat :=
  (text.take offset).foldl step (1, 0)
where
  step (place : Nat × Nat) (b : UInt8) : Nat × Nat :=
    if b = 10 then (place.1 + 1, 0) else (place.1, place.2 + 1)

/-- **An error in words**, with its place in `text` if it has one. -/
def Error.message (text : List UInt8) (e : Error) : String :=
  match e.offset with
  | none => e.fault.message
  | some offset =>
    let (line, column) := lineColumn text offset
    e.fault.message ++ " at line " ++ Decimal.text line ++ " column " ++ Decimal.text column

/-- A trail in front of an error's own words: steps by name are joined by points. -/
def dotted (trail : Trail) : String := go "" trail
where
  go (separator : String) : Trail → String
    | [] => ""
    | some (.index i) :: rest => "[" ++ Decimal.text i ++ "]" ++ go "." rest
    | some (.field name) :: rest => separator ++ name ++ go "." rest
    | none :: rest => separator ++ "?" ++ go "." rest

/-- **An error in words that also name the way to the value**, if any step of it is known. -/
def Error.messageWithTrail (text : List UInt8) (e : Error) : String :=
  if e.path.isEmpty then e.message text else dotted e.trail ++ ": " ++ e.message text

end ErrorContract.Json
