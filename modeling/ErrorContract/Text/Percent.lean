/-
  ErrorContract.Text.Percent
  ──────────────────────────
  **PERCENT ENCODING.**

  A byte that may not stand for itself is written as a percent sign and two
  hexadecimal digits.  Bytes beyond ASCII are always written so; which ASCII
  characters are depends on the place.
-/
import ErrorContract.Text.Utf8

namespace ErrorContract.Percent

open ErrorContract

/-- A hexadecimal digit, letters as capitals. -/
def hexDigit (n : Nat) : Char := if n < 10 then Char.ofNat (48 + n) else Char.ofNat (55 + n)

/-- A byte, written out. -/
def escape (b : UInt8) : List Char := ['%', hexDigit (b.toNat / 16), hexDigit (b.toNat % 16)]

/-- One character, written out if `must` demands it or it is beyond ASCII. -/
def encodeChar (must : Char → Bool) (c : Char) : List Char :=
  if must c || 0x80 ≤ c.toNat then (Utf8.encodeChar c).flatMap escape else [c]

/-- **A text with characters written out.** -/
def encode (must : Char → Bool) (cs : List Char) : List Char := cs.flatMap (encodeChar must)

/-- The value of a hexadecimal digit. -/
def hexValue? (b : UInt8) : Option UInt8 :=
  if 0x30 ≤ b && b ≤ 0x39 then some (b - 0x30)
  else if 0x41 ≤ b && b ≤ 0x46 then some (b - 0x37)
  else if 0x61 ≤ b && b ≤ 0x66 then some (b - 0x57)
  else none

/-- **The bytes that a text stands for.** A percent sign without two digits stands for itself. -/
def decode : List UInt8 → List UInt8
  | 0x25 :: a :: b :: rest =>
    match hexValue? a, hexValue? b with
    | some x, some y => (x * 16 + y) :: decode rest
    | _, _ => 0x25 :: decode (a :: b :: rest)
  | b :: rest => b :: decode rest
  | [] => []

/-- The bytes that a text of characters stands for. -/
def decodeText (s : String) : List UInt8 := decode (Utf8.encode s)

end ErrorContract.Percent
