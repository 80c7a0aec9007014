/-
  ErrorContract.Json.Skip
  ───────────────────────
  **READING OVER A VALUE THAT NOBODY ASKED FOR.**

  The value of an unknown member is checked to be JSON and then dropped.
  Because nothing is built, brackets may nest to any depth: the open ones
  are kept on a list.  Escapes are checked for their form only, so what is
  skipped need not decode to text.
-/
import ErrorContract.Json.Number
import ErrorContract.Json.Text

namespace ErrorContract.Json

open ErrorContract

/-! ## §1. Strings and numbers. -/

/-- What the scanner of a skipped string is in the middle of. -/
inductive SkipMode where
  | plain
  /-- Behind a backslash. -/
  | escaped
  /-- In the digits of an escape. -/
  | hex (digits : HexDigits)

/-- Scan to the closing quote; nothing is kept. -/
def skipScan (offset : Nat) : SkipMode → List UInt8 → Scan
  | _, [] => .ended offset
  | .plain, b :: rest =>
    if b = 0x22 then .closed [] rest (offset + 1)
    else if b = 0x5c then skipScan (offset + 1) .escaped rest
    else if b < 0x20 then .fault .controlCharacter offset
    else skipScan (offset + 1) .plain rest
  | .escaped, b :: rest =>
    if b = 0x75 then skipScan (offset + 1) (.hex ⟨4, some 0⟩) rest
    else if (shortEscape b).isSome then skipScan (offset + 1) .plain rest
    else .fault .invalidEscape (offset + 1)
  | .hex digits, b :: rest =>
    let value := digits.push b
    if 1 < digits.owed then skipScan (offset + 1) (.hex ⟨digits.owed - 1, value⟩) rest
    else if value.isSome then skipScan (offset + 1) .plain rest
    else .fault .invalidEscape (offset + 1)

/-- Skip a string behind its opening quote. -/
def skipString : Read Unit := fun c =>
  match skipScan c.offset .plain c.rest, c.ending with
  | .closed _ rest offset, _ => .ok () { c with rest, offset }
  | .fault f offset, _ => .error ⟨f, some offset, []⟩ c
  | .ended offset, .complete => .error ⟨.endInString, some offset, []⟩ c
  | .ended offset, .brokenOff message =>
    .error ⟨.brokenOff message, none, []⟩ { c with rest := [], offset }

/-- Skip the digits of an exponent. -/
def skipExponentDigits : Read Unit := do
  match ← next with
  | some d => if isDigit d then let _ ← digitRun else fail .invalidNumber
  | none => fail .invalidNumber

/-- Skip the exponent of a number, from its letter on. -/
def skipExponent : Read Unit := do
  advance
  let sign ← peek
  if sign == some 0x2d || sign == some 0x2b then advance
  skipExponentDigits

/-- Skip what may follow the whole part of a number. -/
def skipNumberTail : Read Unit := do
  match ← peek with
  | some 0x2e =>
    advance
    if (← digitRun).isEmpty then failNext .invalidNumber
    else
      match ← peek with
      | some 0x65 | some 0x45 => skipExponent
      | _ => pure ()
  | some 0x65 | some 0x45 => skipExponent
  | _ => pure ()

/-- Skip a number behind its sign. -/
def skipNumber : Read Unit := do
  match ← next with
  | none => fail .invalidNumber
  | some 0x30 =>
    match ← peek with
    | some d => if isDigit d then failNext .invalidNumber else skipNumberTail
    | none => pure ()
  | some d =>
    if isDigit d then
      let _ ← digitRun
      skipNumberTail
    else fail .invalidNumber

/-! ## §2. Values. -/

/-- The kinds of brackets. -/
inductive Bracket where
  | list | object
  deriving Repr, DecidableEq

/-- The byte that closes a bracket. -/
def Bracket.closing : Bracket → UInt8
  | .list => 0x5d
  | .object => 0x7d

/-- The fault of a body that ends inside the brackets. -/
def Bracket.ended : Bracket → Fault
  | .list => .endInList
  | .object => .endInObject

/-- The fault of a value inside the brackets that is not followed by a comma or their end. -/
def Bracket.notSeparated : Bracket → Fault
  | .list => .expectedListCommaOrEnd
  | .object => .expectedObjectCommaOrEnd

/-- What stands before a value inside the brackets: nothing, or a name and a colon. -/
def Bracket.skipName : Bracket → Read Unit
  | .list => pure ()
  | .object => do
    match ← look with
    | some 0x22 =>
      advance
      skipString
      colon
    | some _ => failNext .keyMustBeString
    | none => failNext .endInObject

/-- Skip a value without brackets, or only an opening bracket. -/
def skipLeaf : Read (Option Bracket) := do
  match ← look with
  | none => failNext .endInValue
  | some 0x6e => advance; literal nullTail; return none
  | some 0x74 => advance; literal trueTail; return none
  | some 0x66 => advance; literal falseTail; return none
  | some 0x2d => advance; skipNumber; return none
  | some 0x22 => advance; skipString; return none
  | some 0x5b => advance; return some .list
  | some 0x7b => advance; return some .object
  | some b =>
    if isDigit b then
      skipNumber
      return none
    else failNext .expectedValue

/-- What comes next while a value is skipped. -/
inductive SkipStage where
  /-- A value. -/
  | value
  /-- The rest of what these brackets hold; `begun` once they hold a value. -/
  | inside (bracket : Bracket) (begun : Bool)

/-- Skip up to the end of the outermost of the open brackets. Every second step takes a byte,
so twice as many steps as there are bytes, and two more, are enough. -/
def skipSteps : Nat → SkipStage → List Bracket → Read Unit
  | 0, _, _ => failNext .endInValue
  | steps + 1, .value, outer => do
    match ← skipLeaf, outer with
    | some bracket, _ => skipSteps steps (.inside bracket false) outer
    | none, [] => pure ()
    | none, bracket :: outer => skipSteps steps (.inside bracket true) outer
  | steps + 1, .inside bracket begun, outer => do
    match ← look with
    | none => failNext bracket.ended
    | some b =>
      if b = bracket.closing then
        advance
        match outer with
        | [] => pure ()
        | bracket :: outer => skipSteps steps (.inside bracket true) outer
      else if begun then
        if b = 0x2c then
          advance
          bracket.skipName
          skipSteps steps .value (bracket :: outer)
        else failNext bracket.notSeparated
      else
        bracket.skipName
        skipSteps steps .value (bracket :: outer)

/-- **Skip one value** of a body with at most `bound` bytes. -/
def skipValue (bound : Nat) : Read Unit := skipSteps (2 * bound + 2) .value []

end ErrorContract.Json
