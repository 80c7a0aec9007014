/-
  ErrorContract.Json.Cursor
  ─────────────────────────
  **READING A BODY BYTE BY BYTE.**

  A reader moves a cursor over the bytes of a body.  It keeps the cursor
  when it fails: the place of a fault that has none yet is where the reader
  of the enclosing list or object comes to rest.

  A body either is complete or breaks off while it is received.  Looking
  beyond the last byte of a complete body finds its end; looking beyond the
  last byte of a broken one fails.
-/
import ErrorContract.Json.Fault

namespace ErrorContract.Json

open ErrorContract

/-! ## §1. Cursor and reader. -/

/-- What stands behind the last byte of a body. -/
inductive Ending where
  /-- Nothing: the body is complete. -/
  | complete
  /-- The body broke off. -/
  | brokenOff (message : String)
  deriving Repr, DecidableEq

/-- A place in a body. -/
structure Cursor where
  /-- The bytes that follow. -/
  rest : List UInt8
  /-- How many bytes lie before. -/
  offset : Nat
  /-- What stands behind the last byte. -/
  ending : Ending
  deriving Repr

/-- A reader moves the cursor and yields a result or an error. -/
abbrev Read := EStateM Error Cursor

/-- The beginning of a body. -/
def Cursor.start (body : List UInt8) (ending : Ending) : Cursor := ⟨body, 0, ending⟩

/-! ## §2. Failing. -/

/-- Fail at a given place. -/
def failAt (offset : Nat) (fault : Fault) : Read α :=
  fun c => .error ⟨fault, some offset, []⟩ c

/-- Fail behind the bytes read so far. -/
def fail (fault : Fault) : Read α := fun c => .error ⟨fault, some c.offset, []⟩ c

/-- Fail on the next byte, or at the end of the body. -/
def failNext (fault : Fault) : Read α :=
  fun c => .error ⟨fault, some (if c.rest.isEmpty then c.offset else c.offset + 1), []⟩ c

/-- Fail with a mismatch, whose place is not known yet. -/
def mismatch (m : Mismatch) : Read α := fun c => .error ⟨.mismatch m, none, []⟩ c

/-- Give an error that has no place the place at which the reader came to rest. -/
def fixing (read : Read α) : Read α := fun c =>
  match read c with
  | .ok a c' => .ok a c'
  | .error e c' => .error { e with offset := e.offset <|> some c'.offset } c'

/-! ## §3. Single bytes. -/

/-- The next byte, which stays where it is. -/
def peek : Read (Option UInt8) := fun c =>
  match c.rest, c.ending with
  | b :: _, _ => .ok (some b) c
  | [], .complete => .ok none c
  | [], .brokenOff message => .error ⟨.brokenOff message, none, []⟩ c

/-- The cursor behind the next byte. -/
def Cursor.advance (c : Cursor) : Cursor :=
  match c.rest with
  | [] => c
  | _ :: rest => { c with rest, offset := c.offset + 1 }

/-- Step over the next byte. -/
def advance : Read Unit := fun c => .ok () c.advance

/-- Take the next byte. -/
def next : Read (Option UInt8) := do
  let b ← peek
  advance
  return b

/-! ## §4. Blanks and literals. -/

/-- The four blanks of JSON: space, line feed, carriage return and tab. -/
def isBlank (b : UInt8) : Bool := b == 0x20 || b == 0x0a || b == 0x0d || b == 0x09

/-- The cursor behind the blanks. -/
def Cursor.skipBlanks (c : Cursor) : Cursor := go c.rest c.offset
where
  go : List UInt8 → Nat → Cursor
    | [], offset => { c with rest := [], offset }
    | b :: rest, offset =>
      if isBlank b then go rest (offset + 1) else { c with rest := b :: rest, offset }

/-- Skip blanks and look at the byte behind them. -/
def look : Read (Option UInt8) := do
  modify Cursor.skipBlanks
  peek

/-- Read exactly these bytes. -/
def literal : List UInt8 → Read Unit
  | [] => pure ()
  | b :: more => do
    match ← next with
    | none => fail .endInValue
    | some a => if a = b then literal more else fail .expectedIdent

/-- What follows the first letter of `null`. -/
def nullTail : List UInt8 := [0x75, 0x6c, 0x6c]

/-- What follows the first letter of `true`. -/
def trueTail : List UInt8 := [0x72, 0x75, 0x65]

/-- What follows the first letter of `false`. -/
def falseTail : List UInt8 := [0x61, 0x6c, 0x73, 0x65]

/-- Read the colon between a name and its value. -/
def colon : Read Unit := do
  match ← look with
  | some 0x3a => advance
  | some _ => failNext .expectedColon
  | none => failNext .endInObject

/-- **Nothing but blanks may follow.** -/
def finish : Read Unit := do
  match ← look with
  | none => pure ()
  | some _ => failNext .trailingCharacters

end ErrorContract.Json
