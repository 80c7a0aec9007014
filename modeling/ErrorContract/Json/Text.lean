/-
  ErrorContract.Json.Text
  ───────────────────────
  **READING STRINGS.**

  A string is scanned one byte at a time up to its closing quote.  Bytes
  that stand for themselves are kept in runs, escapes become characters at
  once; only when the closing quote is found are the runs decoded, so a
  string that does not end is a fault before bytes that are no text are.
-/
import ErrorContract.Json.Cursor
import ErrorContract.Text.Utf8

namespace ErrorContract.Json

open ErrorContract

/-! ## §1. Escapes. -/

/-- The value of a hexadecimal digit. -/
def hexValue (b : UInt8) : Option Nat :=
  if 0x30 ≤ b && b ≤ 0x39 then some (b.toNat - 0x30)
  else if 0x41 ≤ b && b ≤ 0x46 then some (b.toNat - 0x37)
  else if 0x61 ≤ b && b ≤ 0x66 then some (b.toNat - 0x57)
  else none

/-- The character that a one-letter escape stands for. -/
def shortEscape (b : UInt8) : Option Char :=
  match b with
  | 0x22 => some '"'
  | 0x5c => some '\\'
  | 0x2f => some '/'
  | 0x62 => some '\x08'
  | 0x66 => some '\x0c'
  | 0x6e => some '\n'
  | 0x72 => some '\r'
  | 0x74 => some '\t'
  | _ => none

/-- Four hexadecimal digits being read. -/
structure HexDigits where
  /-- How many digits are still owed; at least one. -/
  owed : Nat
  /-- The number so far, absent once a byte was no digit. -/
  value : Option Nat

/-- The number after one more byte. -/
def HexDigits.push (h : HexDigits) (b : UInt8) : Option Nat :=
  match h.value, hexValue b with
  | some n, some d => some (n * 16 + d)
  | _, _ => none

/-! ## §2. Scanning. -/

/-- A piece of a string. -/
inductive Piece where
  /-- Bytes that stand for themselves, and where they begin. -/
  | run (start : Nat) (bytes : List UInt8)
  /-- A character written as an escape. -/
  | char (c : Char)

/-- What the scanner is in the middle of. -/
inductive Mode where
  /-- Between characters. -/
  | plain
  /-- Behind a backslash. -/
  | escaped
  /-- In the digits of an escape; `high` is the leading surrogate before it, if there is one. -/
  | hex (digits : HexDigits) (high : Option Nat)
  /-- Behind a leading surrogate, where a backslash must stand. -/
  | lowBackslash (high : Nat)
  /-- Behind a leading surrogate and a backslash, where a `u` must stand. -/
  | lowLetter (high : Nat)

/-- The end of a scan. -/
inductive Scan where
  /-- The closing quote was read. -/
  | closed (pieces : List Piece) (rest : List UInt8) (offset : Nat)
  /-- A fault was met. -/
  | fault (fault : Fault) (offset : Nat)
  /-- The bytes ended. -/
  | ended (offset : Nat)

/-- The pieces with the current run, if it holds anything. -/
def flush (start : Nat) (run : List UInt8) (pieces : List Piece) : List Piece :=
  if run.isEmpty then pieces else .run start run.reverse :: pieces

/-- What four digits mean: a character, a leading surrogate, or a fault. -/
inductive Escape where
  | char (c : Char)
  | leading (high : Nat)
  | fault (fault : Fault)

/-- The meaning of four digits behind an optional leading surrogate. -/
def escapeMeaning (high : Option Nat) (value : Option Nat) : Escape :=
  match value, high with
  | none, _ => .fault .invalidEscape
  | some n, none =>
    if 0xdc00 ≤ n && n ≤ 0xdfff then .fault .loneSurrogate
    else if 0xd800 ≤ n && n ≤ 0xdbff then .leading n
    else .char (Char.ofNat n)
  | some n, some h =>
    if 0xdc00 ≤ n && n ≤ 0xdfff then
      .char (Char.ofNat (0x10000 + (h - 0xd800) * 0x400 + (n - 0xdc00)))
    else .fault .loneSurrogate

/-- Scan a string behind its opening quote. `run` is the current run, last byte first, which
began at `start`; `pieces` are the pieces before it, last first. -/
def scan (offset start : Nat) (run : List UInt8) (pieces : List Piece) :
    Mode → List UInt8 → Scan
  | _, [] => .ended offset
  | .plain, b :: rest =>
    if b = 0x22 then .closed (flush start run pieces).reverse rest (offset + 1)
    else if b = 0x5c then
      scan (offset + 1) start [] (flush start run pieces) .escaped rest
    else if b < 0x20 then .fault .controlCharacter (offset + 1)
    else scan (offset + 1) start (b :: run) pieces .plain rest
  | .escaped, b :: rest =>
    if b = 0x75 then scan (offset + 1) start [] pieces (.hex ⟨4, some 0⟩ none) rest
    else match shortEscape b with
      | some c => scan (offset + 1) (offset + 1) [] (.char c :: pieces) .plain rest
      | none => .fault .invalidEscape (offset + 1)
  | .hex digits high, b :: rest =>
    let value := digits.push b
    if 1 < digits.owed then
      scan (offset + 1) start [] pieces (.hex ⟨digits.owed - 1, value⟩ high) rest
    else match escapeMeaning high value with
      | .char c => scan (offset + 1) (offset + 1) [] (.char c :: pieces) .plain rest
      | .leading h => scan (offset + 1) start [] pieces (.lowBackslash h) rest
      | .fault f => .fault f (offset + 1)
  | .lowBackslash high, b :: rest =>
    if b = 0x5c then scan (offset + 1) start [] pieces (.lowLetter high) rest
    else .fault .endOfEscape (offset + 1)
  | .lowLetter high, b :: rest =>
    if b = 0x75 then scan (offset + 1) start [] pieces (.hex ⟨4, some 0⟩ (some high)) rest
    else .fault .endOfEscape (offset + 1)

/-! ## §3. Decoding. -/

/-- The characters of the pieces, or the place of the first byte that is no text. -/
def decodePieces : List Piece → Except Nat (List Char)
  | [] => .ok []
  | .char c :: rest => (decodePieces rest).map (c :: ·)
  | .run start bytes :: rest =>
    match Utf8.decode bytes with
    | .error e => .error (start + e.validUpTo + 1)
    | .ok cs => (decodePieces rest).map (cs ++ ·)

/-- **A string behind its opening quote.** -/
def string : Read String := fun c =>
  match scan c.offset c.offset [] [] .plain c.rest, c.ending with
  | .closed pieces rest offset, _ =>
    let behind := { c with rest, offset }
    match decodePieces pieces with
    | .ok cs => .ok (String.ofList cs) behind
    | .error place => .error ⟨.invalidCodePoint, some place, []⟩ behind
  | .fault f offset, _ => .error ⟨f, some offset, []⟩ c
  | .ended offset, .complete => .error ⟨.endInString, some offset, []⟩ c
  | .ended offset, .brokenOff message =>
    .error ⟨.brokenOff message, none, []⟩ { c with rest := [], offset }

end ErrorContract.Json
