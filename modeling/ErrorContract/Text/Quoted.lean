/-
  ErrorContract.Text.Quoted
  ─────────────────────────
  **TEXT AS A MESSAGE QUOTES IT.**

  A message that shows a piece of input puts it between double quotes, so
  that its ends are seen, and escapes what a reader could not see: the
  quote, the backslash, NUL, tab, line feed and carriage return by a letter,
  every other unprintable character by its code point, `\u{…}`.
-/
import ErrorContract.Text.Unprintable

namespace ErrorContract

/-- The hexadecimal digits of a number, most significant first. -/
def Quoted.hex (n : Nat) : List Char :=
  if n < 16 then [digit n] else Quoted.hex (n / 16) ++ [digit (n % 16)]
where
  digit (d : Nat) : Char := if d < 10 then Char.ofNat (48 + d) else Char.ofNat (87 + d)

/-- One character between the quotes. -/
def Quoted.escape (c : Char) : List Char :=
  if c = '"' then ['\\', '"']
  else if c = '\\' then ['\\', '\\']
  else if c = '\x00' then ['\\', '0']
  else if c = '\t' then ['\\', 't']
  else if c = '\n' then ['\\', 'n']
  else if c = '\r' then ['\\', 'r']
  else if Unprintable.member c then '\\' :: 'u' :: '{' :: (Quoted.hex c.toNat ++ ['}'])
  else [c]

/-- **A text between its quotes.** -/
def Quoted.text (s : String) : String :=
  String.ofList ('"' :: (s.toList.flatMap Quoted.escape ++ ['"']))

end ErrorContract
