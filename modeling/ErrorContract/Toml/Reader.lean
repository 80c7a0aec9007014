/-
  ErrorContract.Toml.Reader
  ─────────────────────────
  **THE STATEMENTS OF A TOML DOCUMENT.**

  A document is a list of statements, one a line: a setting, the header of a
  table, or the header of one more element of an array of tables.  Inside
  brackets lines may end anywhere and comments may stand.  Values nest to a
  limited depth.
-/
import ErrorContract.Toml.Scalar
import ErrorContract.Toml.Table
import ErrorContract.Toml.Text

namespace ErrorContract.Toml

open ErrorContract

/-! ## §1. Blanks and comments. -/

/-- Read a comment, whose `#` has been read, up to the end of its line. -/
def comment : Front Unit := fun cs => go cs
where
  go : List Char → Option (Unit × List Char)
    | [] => some ((), [])
    | '\n' :: rest => some ((), '\n' :: rest)
    | '\r' :: '\n' :: rest => some ((), '\r' :: '\n' :: rest)
    | c :: rest => if isPlain c then go rest else none

/-- Read blanks, ends of lines and comments. -/
def filler : Nat → Front Unit
  | 0 => Front.refuse
  | rounds + 1 => do
    let _ ← Front.run isBlank
    if ← Front.accept ['#'] then
      comment
      filler rounds
    else if ← acceptNewline then filler rounds

/-- Read the end of a statement: possibly a comment, and the end of the line or of the text. -/
def statementEnd : Front Unit := do
  let _ ← Front.run isBlank
  if ← Front.accept ['#'] then comment
  match ← Front.peek with
  | none => pure ()
  | some _ => newline

/-! ## §2. Keys. -/

/-- May the character stand in a bare key? -/
def isKeyChar (c : Char) : Bool :=
  ('A' ≤ c && c ≤ 'Z') || ('a' ≤ c && c ≤ 'z') || Decimal.isDigit c || c == '_' || c == '-'

/-- Read one part of a key. -/
def simpleKey (bound : Nat) : Front String := do
  match ← Front.peek with
  | some '"' => lineString bound '"'
  | some '\'' => lineString bound '\''
  | _ =>
    let cs ← Front.run isKeyChar
    if cs.isEmpty then Front.refuse else return String.ofList cs

/-- Read a key: parts joined by points, among which blanks may stand. -/
def key (bound : Nat) : Nat → Front (List String)
  | 0 => Front.refuse
  | rounds + 1 => do
    let _ ← Front.run isBlank
    let part ← simpleKey bound
    let _ ← Front.run isBlank
    if ← Front.accept ['.'] then return part :: (← key bound rounds)
    else return [part]

/-! ## §3. Values. -/

/-- Does a scalar end before this character? -/
def endsScalar (c : Char) : Bool :=
  isBlank c || c == '\n' || c == '\r' || c == ',' || c == ']' || c == '}' || c == '#'

/-- Read the characters of a scalar; a date goes on behind a space if a digit follows it. -/
def scalarChars : Front (List Char) := do
  let cs ← Front.run (!endsScalar ·)
  let rest ← get
  match rest with
  | ' ' :: d :: _ =>
    if Decimal.isDigit d && (Front.whole date (String.ofList cs)).isSome then
      Front.drop
      return cs ++ ' ' :: (← Front.run (!endsScalar ·))
    else return cs
  | _ => return cs

/-- Read a scalar. -/
def scalarValue : Front Value := do
  match scalar (← scalarChars) with
  | some v => return v
  | none => Front.refuse

/-- Read the elements of an array up to its closing bracket. -/
def arrayItems (bound : Nat) (read : Front Value) : Nat → List Value → Front (List Value)
  | 0, _ => Front.refuse
  | rounds + 1, before => do
    filler bound
    if ← Front.accept [']'] then return before.reverse
    let v ← read
    filler bound
    if ← Front.accept [','] then arrayItems bound read rounds (v :: before)
    else
      Front.given [']']
      return (v :: before).reverse

/-- Read a setting: a key and, behind an equals sign, its value. -/
def setting (bound : Nat) (read : Front Value) : Front (List String × Value) := do
  let path ← key bound bound
  Front.given ['=']
  let _ ← Front.run isBlank
  return (path, ← read)

/-- Read the settings of an inline table up to its closing brace. -/
def inlineSettings (bound : Nat) (read : Front Value) : Nat → Members → Front Members
  | 0, _ => Front.refuse
  | rounds + 1, members => do
    filler bound
    if ← Front.accept ['}'] then return members
    let (path, v) ← setting bound read
    match members.define path v with
    | none => Front.refuse
    | some members =>
      filler bound
      if ← Front.accept [','] then inlineSettings bound read rounds members
      else
        Front.given ['}']
        return members

/-- Read a value; `inner` reads the values inside its brackets. -/
def valueWith (bound : Nat) (inner : Front Value) : Front Value := do
  match ← Front.peek with
  | some '"' => return .text (← string bound '"')
  | some '\'' => return .text (← string bound '\'')
  | some '[' =>
    Front.drop
    return .array (← arrayItems bound inner bound [])
  | some '{' =>
    Front.drop
    return .table (← inlineSettings bound inner bound .empty).values
  | _ => scalarValue

/-- Read a value with at most `depth` open brackets. -/
def value (bound : Nat) : Nat → Front Value
  | 0 => valueWith bound Front.refuse
  | depth + 1 => valueWith bound (value bound depth)

/-- How many brackets may be open at once. -/
def depthLimit : Nat := 80

/-! ## §4. Statements. -/

/-- Read a statement. -/
def statement (bound : Nat) : Front Statement := do
  if ← Front.accept ['[', '['] then
    let path ← key bound bound
    Front.given [']', ']']
    return .element path
  else if ← Front.accept ['['] then
    let path ← key bound bound
    Front.given [']']
    return .table path
  else
    let (path, v) ← setting bound (value bound depthLimit)
    return .setting path v

/-- Read the statements of a document. -/
def statements (bound : Nat) : Nat → List Statement → Front (List Statement)
  | 0, _ => Front.refuse
  | rounds + 1, before => do
    filler bound
    match ← Front.peek with
    | none => return before.reverse
    | some _ =>
      let s ← statement bound
      statementEnd
      statements bound rounds (s :: before)

/-- The mark that may stand at the front of a text. -/
def byteOrderMark : Char := '\ufeff'

/-- **Read a document.** -/
def parse (text : String) : Option Value := do
  let cs := text.toList
  let cs := if cs.head? == some byteOrderMark then cs.tail else cs
  let bound := cs.length + 1
  let (all, rest) ← statements bound bound [] cs
  if rest.isEmpty then
    let members ← assemble .empty [] all
    return .table members.values
  else none

end ErrorContract.Toml
