/-
  ErrorContract.Json.Number
  ─────────────────────────
  **READING NUMBERS.**

  A number without fraction and exponent that fits a 64-bit word is whole;
  every other number becomes a floating point number.  Its digits are
  gathered in a 64-bit significand for as long as they fit, digits beyond
  that only count as powers of ten, and significand and power of ten are
  combined at the end.  Minus zero is a floating point number.  A magnitude
  beyond the floating point numbers is a fault, never an infinity.
-/
import ErrorContract.Json.Cursor

namespace ErrorContract.Json

open ErrorContract

/-! ## §1. Digits. -/

/-- Is the byte an ASCII digit? -/
def isDigit (b : UInt8) : Bool := 0x30 ≤ b && b ≤ 0x39

/-- The number that a digit names. -/
def digitValue (b : UInt8) : Nat := b.toNat - 0x30

/-- Take the digits that follow. -/
def digitRun : Read (List UInt8) := fun c =>
  let (digits, rest) := c.rest.span isDigit
  .ok digits { c with rest, offset := c.offset + digits.length }

/-- Gather digits for as long as the number stays below `limit`; also the digits left over. -/
def gather (limit : Nat) (n : Nat) : List UInt8 → Nat × List UInt8
  | [] => (n, [])
  | d :: ds =>
    let m := n * 10 + digitValue d
    if m < limit then gather limit m ds else (n, d :: ds)

/-- The bound of a significand. -/
def wordLimit : Nat := Nat.pow 2 64

/-- The bound of a written exponent. -/
def exponentLimit : Nat := Nat.pow 2 31

/-! ## §2. Combining significand and power of ten. -/

/-- A significand as a floating point number. -/
def significandFloat (n : Nat) : Float := n.toUInt64.toFloat

/-- A power of ten as a floating point number. -/
def powerOfTen (n : Nat) : Float := Float.ofScientific 1 false n

/-- Divide by a power of ten, in steps of at most 10³⁰⁸. -/
def divideByPower (x : Float) (n : Nat) : Float :=
  if n ≤ 308 then x / powerOfTen n
  else if x == 0 then x
  else divideByPower (x / powerOfTen 308) (n - 308)
termination_by n

/-- A significand times a power of ten, unless that is beyond the floating point numbers. -/
def combine (significand : Nat) (power : Int) : Option Float :=
  let x := significandFloat significand
  match power with
  | .ofNat n =>
    if n ≤ 308 then
      let y := x * powerOfTen n
      if y.isInf then none else some y
    else if x == 0 then some x else none
  | .negSucc n => some (divideByPower x (n + 1))

/-- An exponent kept within a signed 32-bit word. -/
def saturate (power : Int) : Int :=
  let limit : Int := exponentLimit
  if limit ≤ power then limit - 1 else if power < -limit then -limit else power

/-! ## §3. Numbers. -/

/-- Give a number its sign. -/
def signed (positive : Bool) (x : Float) : Value := .float (if positive then x else -x)

/-- Combine what was gathered. A reader of a broken body has looked one byte further. -/
def floating (positive : Bool) (significand : Nat) (power : Int) : Read Value := do
  match combine significand power with
  | some x => return signed positive x
  | none =>
    let c ← get
    failAt (if c.ending = .complete then c.offset else c.offset + 1) .numberOutOfRange

/-- A number without fraction and exponent. -/
def whole (positive : Bool) (significand : Nat) : Value :=
  if positive then .int significand
  else if 0 < significand && significand ≤ Nat.pow 2 63 then .int (-significand)
  else .float (-significandFloat significand)

/-- The digits of an exponent behind its sign. -/
def exponentDigits (positive negative : Bool) (significand : Nat) (power : Int) : Read Value := do
  match ← next with
  | none => fail .endInValue
  | some d =>
    if !isDigit d then fail .invalidNumber
    else
      let (n, excess) := gather exponentLimit (digitValue d) (← digitRun)
      if excess.isEmpty then
        let _ ← peek
        floating positive significand
          (saturate (if negative then power - n else power + n))
      else if significand != 0 && !negative then
        failAt ((← get).offset - (excess.length - 1)) .numberOutOfRange
      else
        let _ ← peek
        return signed positive 0

/-- The exponent of a number, from its letter on. -/
def exponent (positive : Bool) (significand : Nat) (power : Int) : Read Value := do
  advance
  let negative := (← peek) == some 0x2d
  if negative || (← peek) == some 0x2b then advance
  exponentDigits positive negative significand power

/-- The fraction of a number, from its point on. -/
def fraction (positive : Bool) (significand : Nat) (power : Int) : Read Value := do
  advance
  let digits ← digitRun
  if digits.isEmpty then
    match ← peek with
    | some _ => failNext .invalidNumber
    | none => failNext .endInValue
  else
    let (n, excess) := gather wordLimit significand digits
    let power := power - (digits.length - excess.length : Nat)
    match ← peek with
    | some 0x65 | some 0x45 => exponent positive n power
    | _ => floating positive n power

/-- A number behind its whole part; `excess` are the digits that were one too many. -/
def behindWhole (positive : Bool) (significand : Nat) (excess : List UInt8) : Read Value := do
  match ← peek with
  | some 0x2e => fraction positive significand excess.length
  | some 0x65 | some 0x45 => exponent positive significand excess.length
  | _ =>
    if excess.isEmpty then return whole positive significand
    else floating positive significand excess.length

/-- **A number behind its sign.** -/
def number (positive : Bool) : Read Value := do
  match ← next with
  | none => fail .endInValue
  | some 0x30 =>
    if (← peek).any isDigit then failNext .invalidNumber else behindWhole positive 0 []
  | some d =>
    if !isDigit d then fail .invalidNumber
    else
      let (n, excess) := gather wordLimit (digitValue d) (← digitRun)
      behindWhole positive n excess

end ErrorContract.Json
