/-
  ErrorContract.Toml.Scalar
  ─────────────────────────
  **TRUTH VALUES, NUMBERS, DATES AND TIMES.**

  A scalar is a run of characters without blanks, but for the blank that may
  stand between a date and a time.  Whole numbers must fit a signed 64-bit
  word, floating point numbers must not overflow, and dates and times must
  exist.
-/
import ErrorContract.Number.Reading
import ErrorContract.Text.Front
import ErrorContract.Text.Radix
import ErrorContract.Toml.Value

namespace ErrorContract.Toml

open ErrorContract

/-! ## §1. Digits with underscores. -/

/-- Digits in a radix, single underscores between which are dropped; at least one digit. -/
def spacedDigits (radix : Nat) : List Char → Option (List Char)
  | [] => none
  | [c] => if Radix.isDigit radix c then some [c] else none
  | c :: '_' :: rest =>
    if Radix.isDigit radix c then (spacedDigits radix rest).map (c :: ·) else none
  | c :: rest => if Radix.isDigit radix c then (spacedDigits radix rest).map (c :: ·) else none

/-- Decimal digits without a zero in front of others. -/
def wholeDigits (cs : List Char) : Option (List Char) :=
  match cs with
  | '0' :: _ :: _ => none
  | cs => spacedDigits 10 cs

/-! ## §2. Numbers. -/

/-- One more than the greatest number in a signed 64-bit word. -/
def wordBound : Int := Nat.pow 2 63

/-- A whole number, if it fits a signed 64-bit word. -/
def fitWord (i : Int) : Option Value :=
  if -wordBound ≤ i && i < wordBound then some (.int i) else none

/-- A whole number. -/
def wholeNumber (cs : List Char) : Option Value :=
  match cs with
  | '0' :: 'x' :: ds => (spacedDigits 16 ds).bind fun ds => fitWord (Radix.value 16 ds)
  | '0' :: 'o' :: ds => (spacedDigits 8 ds).bind fun ds => fitWord (Radix.value 8 ds)
  | '0' :: 'b' :: ds => (spacedDigits 2 ds).bind fun ds => fitWord (Radix.value 2 ds)
  | cs =>
    let (negative, ds) := Number.splitSign cs
    (wholeDigits ds).bind fun ds =>
      let n := (Decimal.value ds : Int)
      fitWord (if negative then -n else n)

/-- The exponent of a floating point number, from its letter on. -/
def exponentPart : List Char → Option Int
  | [] => some 0
  | c :: cs =>
    if c = 'e' || c = 'E' then
      let (negative, ds) := Number.splitSign cs
      (spacedDigits 10 ds).map fun ds =>
        let n := (Decimal.value ds : Int)
        if negative then -n else n
    else none

/-- Is the character the letter of an exponent? -/
def isExponentLetter (c : Char) : Bool := c == 'e' || c == 'E'

/-- A floating point number behind its sign. -/
def unsignedFloat (cs : List Char) : Option Float :=
  if cs = ['i', 'n', 'f'] then some Number.infinity
  else if cs = ['n', 'a', 'n'] then some Number.notANumber
  else do
    let (mantissa, rest) := cs.span (!isExponentLetter ·)
    let (whole, point) := mantissa.span (· != '.')
    if point.isEmpty && rest.isEmpty then none
    let ws ← wholeDigits whole
    let fs ← match point with
      | [] => some []
      | _ :: fs => spacedDigits 10 fs
    let e ← exponentPart rest
    let x := Number.nearest (Decimal.value (ws ++ fs)) (e - fs.length)
    if x.isInf then none else some x

/-- A floating point number. -/
def floatNumber (cs : List Char) : Option Value :=
  let (negative, cs) := Number.splitSign cs
  (unsignedFloat cs).map fun x => .float (if negative then -x else x)

/-! ## §3. Dates and times. -/

/-- Read a number of so many decimal digits within bounds. -/
def boundedNumber (count least greatest : Nat) : Front Nat := fun cs =>
  let ds := cs.take count
  let n := Decimal.value ds
  if ds.length = count && ds.all Decimal.isDigit && least ≤ n && n ≤ greatest then
    some (n, cs.drop count)
  else none

/-- How many days a month has. -/
def daysIn (year month : Nat) : Nat :=
  if month = 2 then
    if (year % 4 = 0 && year % 100 != 0) || year % 400 = 0 then 29 else 28
  else if month = 4 || month = 6 || month = 9 || month = 11 then 30
  else 31

/-- Read a date. -/
def date : Front Unit := do
  let year ← boundedNumber 4 0 9999
  Front.given ['-']
  let month ← boundedNumber 2 1 12
  Front.given ['-']
  let _ ← boundedNumber 2 1 (daysIn year month)

/-- Read a time; its seconds and their fraction may be missing. -/
def time : Front Unit := do
  let _ ← boundedNumber 2 0 23
  Front.given [':']
  let _ ← boundedNumber 2 0 59
  if ← Front.accept [':'] then
    let _ ← boundedNumber 2 0 60
    if ← Front.accept ['.'] then
      let fraction ← Front.run Decimal.isDigit
      if fraction.isEmpty then Front.refuse

/-- Read the offset of a time from universal time, if there is one. -/
def offset : Front Unit := do
  match ← Front.peek with
  | some 'Z' | some 'z' => Front.drop
  | some '+' | some '-' =>
    Front.drop
    let _ ← boundedNumber 2 0 23
    Front.given [':']
    let _ ← boundedNumber 2 0 59
  | _ => pure ()

/-- Read a date with or without a time, or a time. -/
def moment : Front Unit :=
  Front.orElse
    (do
      date
      match ← Front.peek with
      | some 'T' | some 't' | some ' ' =>
        Front.drop
        time
        offset
      | _ => pure ())
    time

/-- The digits of a fraction: at most nine, and no zeros at their end but for a single one. -/
def fractionDigits (ds : List Char) : List Char :=
  match ((ds.take 9).reverse.dropWhile (· == '0')).reverse with
  | [] => ['0']
  | ds => ds

/-- The offset nought, as it may be written. -/
def negativeNought : List Char := "-00:00".toList

/-- Dates and times in one spelling: capital letters, no space, a short fraction, and an offset
of nought that is not negative. -/
def normalMoment (cs : List Char) : List Char :=
  let spell (c : Char) : Char :=
    if c == 't' || c == ' ' then 'T' else if c == 'z' then 'Z' else c
  let cs := if negativeNought.isSuffixOf cs then cs.take (cs.length - 6) ++ "+00:00".toList else cs
  let (front, tail) := cs.span (· != '.')
  front.map spell ++
    match tail with
    | [] => []
    | _ :: rest =>
      let (fraction, zone) := rest.span Decimal.isDigit
      '.' :: (fractionDigits fraction ++ zone.map spell)

/-! ## §4. Scalars. -/

/-- **The value of a scalar.** -/
def scalar (cs : List Char) : Option Value :=
  if cs = "true".toList then some (.bool true)
  else if cs = "false".toList then some (.bool false)
  else
    if (Front.whole moment (String.ofList cs)).isSome then
      some (.datetime (String.ofList (normalMoment cs)))
    else (wholeNumber cs).or (floatNumber cs)

end ErrorContract.Toml
