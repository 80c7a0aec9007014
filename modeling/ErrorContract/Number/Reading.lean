/-
  ErrorContract.Number.Reading
  ────────────────────────────
  **FLOATING POINT NUMBERS, WRITTEN OUT.**

  A decimal m · 10^e becomes the binary64 number nearest to it, infinity if
  it is too large.  A written number has an optional sign, digits with at
  most one point among or around them, and an optional exponent; the words
  `inf`, `infinity` and `nan` are numbers too, in letters of either case.
-/
import ErrorContract.Text.Decimal

namespace ErrorContract.Number

open ErrorContract

/-- Positive infinity. -/
def infinity : Float := 1.0 / 0.0

/-- Not a number. -/
def notANumber : Float := 0.0 / 0.0

/-- The number nearest to m · 10^e. Exponents that cannot matter are cut short. -/
def nearest (m : Nat) (e : Int) : Float :=
  if m = 0 then 0.0
  else
    let top := e + (Decimal.digits m).length
    if 310 < top then infinity
    else if top < -330 then 0.0
    else match e with
      | .ofNat n => Float.ofScientific m false n
      | .negSucc n => Float.ofScientific m true (n + 1)

/-- Why a text is no floating point number. -/
inductive FloatFault where
  | empty
  | invalid
  deriving Repr, DecidableEq

/-- A fault in words. -/
def FloatFault.message : FloatFault → String
  | .empty => "cannot parse float from empty string"
  | .invalid => "invalid float literal"

/-- A sign and what follows it. -/
def splitSign : List Char → Bool × List Char
  | '-' :: cs => (true, cs)
  | '+' :: cs => (false, cs)
  | cs => (false, cs)

/-- The exponent of a written number, if what follows its digits is one or nothing. -/
def exponentOf : List Char → Option Int
  | [] => some 0
  | c :: cs =>
    if c = 'e' || c = 'E' then
      let (negative, ds) := splitSign cs
      if !ds.isEmpty && ds.all Decimal.isDigit then
        let n := (Decimal.value ds : Int)
        some (if negative then -n else n)
      else none
    else none

/-- A written number behind its sign. -/
def unsignedOf (cs : List Char) : Option Float :=
  let word := cs.map Char.toLower
  if word = "inf".toList || word = "infinity".toList then some infinity
  else if word = "nan".toList then some notANumber
  else
    let (whole, rest) := cs.span Decimal.isDigit
    let (fraction, rest) := match rest with
      | '.' :: rest => rest.span Decimal.isDigit
      | rest => ([], rest)
    if whole.isEmpty && fraction.isEmpty then none
    else (exponentOf rest).map fun e =>
      nearest (Decimal.value (whole ++ fraction)) (e - fraction.length)

/-- **Read a written floating point number.** -/
def parseFloat (s : String) : Except FloatFault Float :=
  if s.isEmpty then .error .empty
  else
    let (negative, cs) := splitSign s.toList
    match unsignedOf cs with
    | some x => .ok (if negative then -x else x)
    | none => .error .invalid

end ErrorContract.Number
