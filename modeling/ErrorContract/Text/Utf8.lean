/-
  ErrorContract.Text.Utf8
  ───────────────────────
  **UTF-8: CHARACTERS AS BYTES, AND BACK.**

  A decoder reads one byte at a time.  Between characters a byte either is a
  character, or leads one and says how many continuation bytes it owes and
  which range the next of them must lie in; those ranges rule out overlong
  forms, surrogates and everything beyond U+10FFFF.  `decode` stops at the
  first byte sequence that is no character and says where it begins and how
  many of its bytes could still have begun one; `decodeLossy` shows each such
  sequence as one U+FFFD and goes on.
-/
import ErrorContract.Text.Decimal

namespace ErrorContract.Utf8

open ErrorContract

/-! ## §1. Encoding. -/

/-- The bytes of one character. -/
def encodeChar (c : Char) : List UInt8 :=
  let n := c.toNat
  if n < 0x80 then [n.toUInt8]
  else if n < 0x800 then [(0xc0 + n / 0x40).toUInt8, (0x80 + n % 0x40).toUInt8]
  else if n < 0x10000 then
    [(0xe0 + n / 0x1000).toUInt8, (0x80 + n / 0x40 % 0x40).toUInt8, (0x80 + n % 0x40).toUInt8]
  else
    [(0xf0 + n / 0x40000).toUInt8, (0x80 + n / 0x1000 % 0x40).toUInt8,
      (0x80 + n / 0x40 % 0x40).toUInt8, (0x80 + n % 0x40).toUInt8]

/-- The bytes of a text. -/
def encode (s : String) : List UInt8 := s.toList.flatMap encodeChar

/-! ## §2. Decoding byte by byte. -/

/-- A character of which some bytes have been read. -/
structure Pending where
  /-- How many continuation bytes are owed; at least one. -/
  owed : Nat
  /-- The bits read so far. -/
  value : Nat
  /-- The least byte that may come next. -/
  low : UInt8
  /-- The greatest byte that may come next. -/
  high : UInt8
  /-- How many bytes have been read. -/
  seen : Nat

/-- What a byte between characters means. -/
inductive Lead where
  /-- It is a character by itself. -/
  | char (c : Char)
  /-- It leads a longer character. -/
  | more (p : Pending)
  /-- No character begins with it. -/
  | bad

/-- The meaning of a byte between characters. -/
def lead (b : UInt8) : Lead :=
  let n := b.toNat
  if n < 0x80 then .char (Char.ofNat n)
  else if n < 0xc2 then .bad
  else if n < 0xe0 then .more ⟨1, n - 0xc0, 0x80, 0xbf, 1⟩
  else if n = 0xe0 then .more ⟨2, 0, 0xa0, 0xbf, 1⟩
  else if n = 0xed then .more ⟨2, 0xd, 0x80, 0x9f, 1⟩
  else if n < 0xf0 then .more ⟨2, n - 0xe0, 0x80, 0xbf, 1⟩
  else if n = 0xf0 then .more ⟨3, 0, 0x90, 0xbf, 1⟩
  else if n < 0xf4 then .more ⟨3, n - 0xf0, 0x80, 0xbf, 1⟩
  else if n = 0xf4 then .more ⟨3, 4, 0x80, 0x8f, 1⟩
  else .bad

/-- What a byte inside a character does. -/
inductive Continue where
  /-- It completes the character. -/
  | char (c : Char)
  /-- More bytes are owed. -/
  | more (p : Pending)
  /-- It does not continue the character. -/
  | bad

/-- Continue a character by one byte. -/
def Pending.continue (p : Pending) (b : UInt8) : Continue :=
  if p.low ≤ b && b ≤ p.high then
    let value := p.value * 0x40 + (b.toNat - 0x80)
    if p.owed ≤ 1 then .char (Char.ofNat value)
    else .more ⟨p.owed - 1, value, 0x80, 0xbf, p.seen + 1⟩
  else .bad

/-! ## §3. Whole byte strings. -/

/-- Bytes that are no text. -/
structure Fault where
  /-- The number of bytes before the first sequence that is no character. -/
  validUpTo : Nat
  /-- The length of that sequence; absent if the bytes end inside a character. -/
  length : Option Nat
  deriving Repr, DecidableEq

/-- A fault in words. -/
def Fault.message (e : Fault) : String :=
  match e.length with
  | some n => "invalid utf-8 sequence of " ++ Decimal.text n ++ " bytes from index " ++
      Decimal.text e.validUpTo
  | none => "incomplete utf-8 byte sequence from index " ++ Decimal.text e.validUpTo

/-- Decode what follows the first `position` bytes; `read` holds the characters so far, last
first, and `pending` the character begun. -/
def decodeFrom (position : Nat) (read : List Char) :
    Option Pending → List UInt8 → Except Fault (List Char)
  | none, [] => .ok read.reverse
  | some p, [] => .error ⟨position - p.seen, none⟩
  | none, b :: rest =>
    match lead b with
    | .char c => decodeFrom (position + 1) (c :: read) none rest
    | .more p => decodeFrom (position + 1) read (some p) rest
    | .bad => .error ⟨position, some 1⟩
  | some p, b :: rest =>
    match p.continue b with
    | .char c => decodeFrom (position + 1) (c :: read) none rest
    | .more q => decodeFrom (position + 1) read (some q) rest
    | .bad => .error ⟨position - p.seen, some p.seen⟩

/-- **Decode a byte string**, or say where it stops being text. -/
def decode (bytes : List UInt8) : Except Fault (List Char) := decodeFrom 0 [] none bytes

/-- Decode a byte string to text. -/
def decodeText (bytes : List UInt8) : Except Fault String :=
  (decode bytes).map String.ofList

/-- The character that stands for bytes that are no text. -/
def replacement : Char := '\ufffd'

/-- Decode with a replacement for every sequence that is no character. -/
def decodeLossyFrom (read : List Char) : Option Pending → List UInt8 → List Char
  | none, [] => read.reverse
  | some _, [] => (replacement :: read).reverse
  | none, b :: rest =>
    match lead b with
    | .char c => decodeLossyFrom (c :: read) none rest
    | .more q => decodeLossyFrom read (some q) rest
    | .bad => decodeLossyFrom (replacement :: read) none rest
  | some p, b :: rest =>
    match p.continue b with
    | .char c => decodeLossyFrom (c :: read) none rest
    | .more q => decodeLossyFrom read (some q) rest
    | .bad =>
      match lead b with
      | .char c => decodeLossyFrom (c :: replacement :: read) none rest
      | .more q => decodeLossyFrom (replacement :: read) (some q) rest
      | .bad => decodeLossyFrom (replacement :: replacement :: read) none rest

/-- **Decode a byte string whatever it holds.** -/
def decodeLossy (bytes : List UInt8) : String := String.ofList (decodeLossyFrom [] none bytes)

end ErrorContract.Utf8
