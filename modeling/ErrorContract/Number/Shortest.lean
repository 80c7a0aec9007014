/-
  ErrorContract.Number.Shortest
  ─────────────────────────────
  **THE SHORTEST DECIMAL THAT READS BACK AS A BINARY64 NUMBER.**

  A finite number is m · 2^q.  Every real within half a unit of it rounds to
  it, the ends of that interval only when m is even.  For one, two, three …
  digits `shortest` tries the two neighbours of the number on the decimal
  grid with that many digits; the first grid with a neighbour inside the
  interval wins, and of two neighbours inside the nearer one.

  How the digits are laid out is a `FloatStyle`: which exponents are written
  positionally, and whether a whole number keeps a `.0`.
-/
import ErrorContract.Text.Decimal

namespace ErrorContract.Number

open ErrorContract

/-! ## §1. Taking a number apart. -/

/-- What a binary64 number is. -/
inductive Binary where
  /-- Not a number. -/
  | nan
  /-- An infinity. -/
  | infinite (negative : Bool)
  /-- The number ± mantissa · 2^exponent. -/
  | finite (negative : Bool) (mantissa : Nat) (exponent : Int)
  deriving Repr, DecidableEq

/-- The number with the given 64 bits. -/
def Binary.ofBits (bits : Nat) : Binary :=
  let negative := bits / Nat.pow 2 63 == 1
  let biased := bits / Nat.pow 2 52 % 2048
  let fraction := bits % Nat.pow 2 52
  if biased == 2047 then
    if fraction == 0 then .infinite negative else .nan
  else if biased == 0 then .finite negative fraction (-1074)
  else .finite negative (fraction + Nat.pow 2 52) (Int.ofNat biased - 1075)

/-- The parts of a floating point number. -/
def Binary.ofFloat (x : Float) : Binary := Binary.ofBits x.toBits.toNat

/-! ## §2. The shortest digits. -/

/-- The decimal number digits · 10^exponent. -/
structure Scientific where
  /-- The digits, as one whole number. -/
  digits : Nat
  /-- The power of ten of the last digit. -/
  exponent : Int
  deriving Repr, DecidableEq

/-- The same number with no trailing zero among its digits. -/
def Scientific.strip (s : Scientific) : Scientific := go s.digits s.exponent s.digits
where
  go (digits : Nat) (exponent : Int) : Nat → Scientific
    | 0 => ⟨digits, exponent⟩
    | fuel + 1 =>
      if digits % 10 == 0 && digits != 0 then go (digits / 10) (exponent + 1) fuel
      else ⟨digits, exponent⟩

/-- How many places the fraction `num / den` has to be moved to the left until it is at
least one; `limit` bounds the search. -/
def leadingZeros (num den : Nat) : Nat → Nat
  | 0 => 0
  | limit + 1 => if den ≤ num then 0 else leadingZeros (num * 10) den limit + 1

/-- The power of ten just above the fraction `num / den`. -/
def magnitude (num den : Nat) : Int :=
  if den ≤ num then ((Decimal.digits (num / den)).length : Int)
  else 1 - (leadingZeros num den 400 : Int)

/-- Scale the fraction `num / den` by 10^(-places). -/
def scaled (num den : Nat) (places : Int) : Nat × Nat :=
  match places with
  | .ofNat n => (num, den * Nat.pow 10 n)
  | .negSucc n => (num * Nat.pow 10 (n + 1), den)

/-- **The shortest decimal of mantissa · 2^exponent**; `mantissa` is not zero. -/
def shortest (mantissa : Nat) (exponent : Int) : Scientific :=
  -- four units to the unit in the last place, so that both ends are whole
  let below := if mantissa == Nat.pow 2 52 && exponent != -1074 then 1 else 2
  let up := match exponent - 2 with
    | .ofNat n => Nat.pow 2 n
    | .negSucc _ => 1
  let den := match exponent - 2 with
    | .ofNat _ => 1
    | .negSucc n => Nat.pow 2 (n + 1)
  let num := 4 * mantissa * up
  let low := (4 * mantissa - below) * up
  let high := (4 * mantissa + 2) * up
  let even := mantissa % 2 == 0
  let top := magnitude num den
  let rec search (count : Nat) (fuel : Nat) : Scientific :=
    let place := top - (count : Int)
    let (n, d) := scaled num den place
    let (l, _) := scaled low den place
    let (h, _) := scaled high den place
    let inside (c : Nat) : Bool :=
      if even then l ≤ c * d && c * d ≤ h else l < c * d && c * d < h
    let floor := n / d
    let rest := n % d
    match fuel, inside floor, inside (floor + 1) with
    | 0, _, _ => ⟨floor, place⟩
    | _ + 1, true, false => ⟨floor, place⟩
    | _ + 1, false, true => ⟨floor + 1, place⟩
    | _ + 1, true, true =>
      if 2 * rest < d || (2 * rest == d && floor % 2 == 0) then ⟨floor, place⟩
      else ⟨floor + 1, place⟩
    | fuel + 1, false, false => search (count + 1) fuel
  (search 1 17).strip

/-! ## §3. Laying the digits out. -/

/-- How a floating point number is written. -/
structure FloatStyle where
  /-- Is a number whose first digit stands for this power of ten written positionally? -/
  positional : Int → Bool
  /-- Does a whole number written positionally end in `.0`? -/
  keepsPoint : Bool

/-- Digits around a decimal point that stands after `point` of them. -/
def FloatStyle.place (style : FloatStyle) (ds : List Char) (point : Int) : List Char :=
  match point with
  | .negSucc n => '0' :: '.' :: (List.replicate (n + 1) '0' ++ ds)
  | .ofNat 0 => '0' :: '.' :: ds
  | .ofNat n =>
    if ds.length ≤ n then
      ds ++ List.replicate (n - ds.length) '0' ++ (if style.keepsPoint then ['.', '0'] else [])
    else ds.take n ++ '.' :: ds.drop n

/-- Digits with a power of ten behind them. -/
def FloatStyle.power (ds : List Char) (exponent : Int) : List Char :=
  let fraction := ds.drop 1
  ds.take 1 ++ (if fraction.isEmpty then [] else '.' :: fraction) ++
    'e' :: (if exponent < 0 then [] else ['+']) ++ Decimal.signedDigits exponent

/-- **A floating point number in a style.** -/
def FloatStyle.write (style : FloatStyle) (x : Float) : List Char :=
  match Binary.ofFloat x with
  | .nan => "NaN".toList
  | .infinite negative => (if negative then "-inf" else "inf").toList
  | .finite negative mantissa exponent =>
    let sign := if negative then ['-'] else []
    if mantissa == 0 then
      sign ++ '0' :: (if style.keepsPoint then ['.', '0'] else [])
    else
      let s := shortest mantissa exponent
      let ds := Decimal.digits s.digits
      let point : Int := (ds.length : Int) + s.exponent
      sign ++ (if style.positional (point - 1) then style.place ds point
        else FloatStyle.power ds (point - 1))

/-- The number as text. -/
def FloatStyle.text (style : FloatStyle) (x : Float) : String := String.ofList (style.write x)

/-- Every number positionally, a whole one without a point. -/
def plainStyle : FloatStyle := ⟨fun _ => true, false⟩

/-- Every number positionally, a whole one with `.0`. -/
def pointedStyle : FloatStyle := ⟨fun _ => true, true⟩

end ErrorContract.Number
