/-
  ErrorContract.Text.Numeral
  ──────────────────────────
  **WHOLE NUMBERS OF A BOUNDED KIND, WRITTEN OUT.**

  A numeral is an optional sign and at least one ASCII digit, nothing else;
  a minus sign is a sign only for kinds that hold negative numbers.  Reading
  goes from left to right, so a numeral that has left the bounds is too
  large or too small whatever follows.
-/
import ErrorContract.Text.Decimal
import ErrorContract.Mismatch

namespace ErrorContract.Numeral

open ErrorContract

/-- Why a text is not the numeral of a number of some kind. -/
inductive Fault where
  | empty
  | invalidDigit
  | tooLarge
  | tooSmall
  /-- The number is zero, which is left out of the kind. -/
  | zero
  deriving Repr, DecidableEq

/-- A fault in words. -/
def Fault.message : Fault → String
  | .empty => "cannot parse integer from empty string"
  | .invalidDigit => "invalid digit found in string"
  | .tooLarge => "number too large to fit in target type"
  | .tooSmall => "number too small to fit in target type"
  | .zero => "number would be zero for non-zero type"

/-- Read digits up to a bound; `overflow` is the fault of leaving it. -/
def digitsWithin (bound : Nat) (overflow : Fault) (n : Nat) : List Char → Except Fault Nat
  | [] => .ok n
  | c :: rest =>
    if Decimal.isDigit c then
      let m := n * 10 + Decimal.digitValue c
      if m ≤ bound then digitsWithin bound overflow m rest else .error overflow
    else .error .invalidDigit

/-- Read a numeral. -/
def parseChars (kind : IntegerKind) : List Char → Except Fault Int
  | [] => .error .empty
  | ['+'] | ['-'] => .error .invalidDigit
  | '+' :: ds => (digitsWithin kind.greatest.toNat .tooLarge 0 ds).map Int.ofNat
  | '-' :: ds =>
    if kind.least < 0 then
      (digitsWithin (-kind.least).toNat .tooSmall 0 ds).map fun n => -Int.ofNat n
    else .error .invalidDigit
  | ds => (digitsWithin kind.greatest.toNat .tooLarge 0 ds).map Int.ofNat

/-- **Read the numeral of a number of some kind.** -/
def parse (kind : IntegerKind) (s : String) : Except Fault Int := parseChars kind s.toList

/-- Read the numeral of a number that is not zero. -/
def parseNonZero (kind : IntegerKind) (s : String) : Except Fault Int := do
  let i ← parse kind s
  if i = 0 then .error .zero else return i

/-- Narrow a number to a kind. -/
def narrow (kind : IntegerKind) (i : Int) : Except Fault Int :=
  if kind.greatest < i then .error .tooLarge
  else if i < kind.least then .error .tooSmall
  else .ok i

end ErrorContract.Numeral
