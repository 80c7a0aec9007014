/-
  ErrorContract.Json.Writer
  ─────────────────────────
  **COMPACT JSON TEXT.**

  No blank stands between tokens.  Inside a string the quote, the backslash
  and the five controls with a short name are escaped by a letter, the other
  controls below U+0020 as `\u00xx`, and everything else stands for itself.
-/
import ErrorContract.Json.Value
import ErrorContract.Number.Shortest

namespace ErrorContract.Json

open ErrorContract

/-! ## §1. Strings. -/

/-- A hexadecimal digit, letters in lower case. -/
def hexDigit (n : Nat) : Char := if n < 10 then Char.ofNat (48 + n) else Char.ofNat (87 + n)

/-- One character inside a quoted string. -/
def quoteChar (c : Char) : List Char :=
  if c = '"' then ['\\', '"']
  else if c = '\\' then ['\\', '\\']
  else if c = '\x08' then ['\\', 'b']
  else if c = '\x0c' then ['\\', 'f']
  else if c = '\n' then ['\\', 'n']
  else if c = '\r' then ['\\', 'r']
  else if c = '\t' then ['\\', 't']
  else if c.toNat < 32 then
    ['\\', 'u', '0', '0', hexDigit (c.toNat / 16), hexDigit (c.toNat % 16)]
  else [c]

/-- A string with its quotes. -/
def quote (s : String) : List Char := '"' :: (s.toList.flatMap quoteChar ++ ['"'])

/-! ## §2. Numbers. -/

/-- Floating point numbers in JSON: positional from 10⁻⁵ up to 10¹⁶, and a whole number
keeps its point. -/
def floatStyle : Number.FloatStyle := ⟨fun e => -5 ≤ e && e ≤ 15, true⟩

/-! ## §3. Values. -/

mutual

/-- The characters of a value. -/
def Value.chars : Value → List Char
  | .null => ['n', 'u', 'l', 'l']
  | .bool true => ['t', 'r', 'u', 'e']
  | .bool false => ['f', 'a', 'l', 's', 'e']
  | .int i => Decimal.signedDigits i
  | .float x => floatStyle.write x
  | .text s => quote s
  | .list items => '[' :: (itemChars items ++ [']'])
  | .object members => '{' :: (memberChars members ++ ['}'])

/-- The elements of a list, separated by commas. -/
def itemChars : List Value → List Char
  | [] => []
  | [v] => v.chars
  | v :: rest => v.chars ++ ',' :: itemChars rest

/-- The members of an object, separated by commas. -/
def memberChars : List (String × Value) → List Char
  | [] => []
  | [(name, v)] => quote name ++ ':' :: v.chars
  | (name, v) :: rest => quote name ++ ':' :: (v.chars ++ ',' :: memberChars rest)

end

/-- **The compact text of a value.** -/
def Value.render (v : Value) : String := String.ofList v.chars

end ErrorContract.Json
