/-
  ErrorContract.Toml.Text
  ───────────────────────
  **STRINGS.**

  A string stands between single or between double quotes, on one line, or
  between three of them, over several.  Between double quotes a backslash
  begins an escape; at the end of a line of a string that may go over several
  it leaves out the line's end and the blanks behind it.
-/
import ErrorContract.Text.Front
import ErrorContract.Text.Radix

namespace ErrorContract.Toml

open ErrorContract

/-! ## §1. Characters. -/

/-- A space or a tab. -/
def isBlank (c : Char) : Bool := c == ' ' || c == '\t'

/-- May the character stand in a string or a comment? -/
def isPlain (c : Char) : Bool := c == '\t' || (' ' ≤ c && c != '\x7f')

/-- The end of a line. -/
def newline : Front Unit := Front.orElse (Front.given ['\n']) (Front.given ['\r', '\n'])

/-- Read a line's end, if one comes next; say whether it did. -/
def acceptNewline : Front Bool := do return (← Front.optional newline).isSome

/-- The character that a one-letter escape stands for. -/
def shortEscape (c : Char) : Option Char :=
  match c with
  | 'b' => some '\x08'
  | 't' => some '\t'
  | 'n' => some '\n'
  | 'f' => some '\x0c'
  | 'r' => some '\r'
  | 'e' => some '\x1b'
  | '"' => some '"'
  | '\\' => some '\\'
  | _ => none

/-- Read so many hexadecimal digits as a character. -/
def hexEscape (count : Nat) : Front Char := fun cs =>
  if (cs.take count).length = count then
    (Radix.codePoint? (cs.take count)).map fun c => (c, cs.drop count)
  else none

/-- Read what follows a backslash. -/
def escape : Front Char := do
  match ← Front.peek with
  | some 'x' => Front.drop; hexEscape 2
  | some 'u' => Front.drop; hexEscape 4
  | some 'U' => Front.drop; hexEscape 8
  | some c =>
    Front.drop
    match shortEscape c with
    | some c => return c
    | none => Front.refuse
  | none => Front.refuse

/-! ## §2. Strings on one line. -/

/-- Read up to the closing quote `quote`; escapes count only where they are allowed. -/
def lineRest (quote : Char) (escapes : Bool) : Nat → List Char → Front String
  | 0, _ => Front.refuse
  | rounds + 1, before => do
    match ← Front.peek with
    | none => Front.refuse
    | some c =>
      Front.drop
      if c = quote then return String.ofList before.reverse
      else if escapes && c = '\\' then lineRest quote escapes rounds ((← escape) :: before)
      else if isPlain c then lineRest quote escapes rounds (c :: before)
      else Front.refuse

/-- Read a string on one line, from its opening quote on. -/
def lineString (bound : Nat) (quote : Char) : Front String := do
  Front.given [quote]
  lineRest quote (quote == '"') bound []

/-! ## §3. Strings over several lines. -/

/-- Read blanks and ends of lines. -/
def skipLines : Nat → Front Unit
  | 0 => Front.refuse
  | rounds + 1 => do
    let _ ← Front.run isBlank
    if ← acceptNewline then skipLines rounds

/-- Read the blanks and the line's end behind a backslash, if that is what follows it. -/
def lineEnding : Front Unit := do
  let _ ← Front.run isBlank
  newline

/-- Read up to the closing quotes. Up to two quotes in front of them belong to the string. -/
def blockRest (quote : Char) (escapes : Bool) : Nat → List Char → Front String
  | 0, _ => Front.refuse
  | rounds + 1, before => do
    if ← Front.accept [quote, quote, quote] then
      let before := if ← Front.accept [quote] then quote :: before else before
      let before := if ← Front.accept [quote] then quote :: before else before
      return String.ofList before.reverse
    match ← Front.peek with
    | none => Front.refuse
    | some '\n' =>
      Front.drop
      blockRest quote escapes rounds ('\n' :: before)
    | some '\r' =>
      Front.given ['\r', '\n']
      blockRest quote escapes rounds ('\n' :: '\r' :: before)
    | some c =>
      Front.drop
      if escapes && c = '\\' then
        if (← Front.optional lineEnding).isSome then
          skipLines rounds
          blockRest quote escapes rounds before
        else blockRest quote escapes rounds ((← escape) :: before)
      else if isPlain c then blockRest quote escapes rounds (c :: before)
      else Front.refuse

/-- Read a string over several lines, from its opening quotes on. A line's end right behind them
is left out. -/
def blockString (bound : Nat) (quote : Char) : Front String := do
  Front.given [quote, quote, quote]
  let _ ← acceptNewline
  blockRest quote (quote == '"') bound []

/-- **Read a string**, from its opening quotes on. -/
def string (bound : Nat) (quote : Char) : Front String := fun cs =>
  if [quote, quote, quote].isPrefixOf cs then blockString bound quote cs
  else lineString bound quote cs

end ErrorContract.Toml
