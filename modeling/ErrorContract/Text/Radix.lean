/-
  ErrorContract.Text.Radix
  ────────────────────────
  **DIGITS IN A RADIX OF AT MOST SIXTEEN.**

  Letters of either case are digits; written are the small ones.
-/

namespace ErrorContract.Radix

/-- The value of a digit. -/
def digit? (radix : Nat) (c : Char) : Option Nat :=
  let v :=
    if '0' ≤ c && c ≤ '9' then some (c.toNat - 48)
    else if 'a' ≤ c && c ≤ 'f' then some (c.toNat - 87)
    else if 'A' ≤ c && c ≤ 'F' then some (c.toNat - 55)
    else none
  v.filter (· < radix)

/-- Is the character a digit? -/
def isDigit (radix : Nat) (c : Char) : Bool := (digit? radix c).isSome

/-- The number that digits name. -/
def value (radix : Nat) (digits : List Char) : Nat :=
  digits.foldl (fun n c => n * radix + (digit? radix c).getD 0) 0

/-- The character with the code point that hexadecimal digits name. -/
def codePoint? (digits : List Char) : Option Char :=
  let n := value 16 digits
  if digits.all (isDigit 16) && n.isValidChar then some (Char.ofNat n) else none

/-- The hexadecimal digits of a number, in small letters. -/
def hex (n : Nat) : List Char := Nat.toDigits 16 n

end ErrorContract.Radix
