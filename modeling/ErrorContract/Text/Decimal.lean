/-
  ErrorContract.Text.Decimal
  ──────────────────────────
  **DECIMAL NUMERALS OF NATURAL AND WHOLE NUMBERS.**

  Every number that the library writes (an error code, a list position, a
  line and a column) goes through `digits`, the shortest run of decimal
  digits that names the number.  `value` reads such a run back:

      value (digits n) = n

  so two different numbers never share a numeral.
-/

namespace ErrorContract.Decimal

/-! ## §1. Writing. -/

/-- The character of one decimal digit. -/
def digitChar (d : Nat) : Char := Char.ofNat (48 + d)

/-- The decimal digits of `n`, most significant first, without leading zeros. -/
def digits (n : Nat) : List Char :=
  if n < 10 then [digitChar n] else digits (n / 10) ++ [digitChar (n % 10)]

/-- The numeral of `n` as text. -/
def text (n : Nat) : String := String.ofList (digits n)

/-- The numeral of a whole number: a minus sign stands before a negative one. -/
def signedDigits : Int → List Char
  | .ofNat n => digits n
  | .negSucc n => '-' :: digits (n + 1)

/-- The numeral of a whole number as text. -/
def signedText (i : Int) : String := String.ofList (signedDigits i)

/-! ## §2. Reading. -/

/-- Is `c` one of the ten ASCII digits? -/
def isDigit (c : Char) : Bool := '0' ≤ c && c ≤ '9'

/-- The number that a digit names. -/
def digitValue (c : Char) : Nat := c.toNat - 48

/-- The number that a run of digits names. -/
def value (ds : List Char) : Nat := ds.foldl (fun n c => n * 10 + digitValue c) 0

theorem digitValue_digitChar {d : Nat} (h : d < 10) : digitValue (digitChar d) = d := by
  match d, h with
  | 0, _ | 1, _ | 2, _ | 3, _ | 4, _ | 5, _ | 6, _ | 7, _ | 8, _ | 9, _ => rfl

theorem isDigit_digitChar {d : Nat} (h : d < 10) : isDigit (digitChar d) = true := by
  match d, h with
  | 0, _ | 1, _ | 2, _ | 3, _ | 4, _ | 5, _ | 6, _ | 7, _ | 8, _ | 9, _ => rfl

/-- **A numeral reads back as its number.** -/
theorem value_digits (n : Nat) : value (digits n) = n := by
  fun_induction digits n with
  | case1 n h => simp [value, digitValue_digitChar h]
  | case2 n h ih =>
    unfold value at ih ⊢
    rw [List.foldl_append, ih, List.foldl_cons, List.foldl_nil,
      digitValue_digitChar (Nat.mod_lt n (by omega))]
    omega

/-- A numeral holds digits only. -/
theorem all_isDigit_digits (n : Nat) : (digits n).all isDigit = true := by
  fun_induction digits n with
  | case1 n h => simp [isDigit_digitChar h]
  | case2 n h ih => simp [ih, isDigit_digitChar (Nat.mod_lt n (by omega : 10 > 0))]

end ErrorContract.Decimal
