/-
  ErrorContract.Url.Domain
  ────────────────────────
  **DOMAIN NAMES IN ASCII.**

  Capitals and other forms of a letter are replaced by the plain small
  letter, characters that are not seen are dropped, and every label beyond
  ASCII is written in Punycode behind `xn--`.  A label that is so written
  already must be readable, and stand for a label in its replaced form.

  The tables are complete for names of ASCII.  Beyond it they cover the
  capitals of the Latin, Greek, Cyrillic and Armenian letters, the wide forms
  of ASCII and a few ligatures, fractions and raised digits; every other
  assigned character stands for itself.  A letter and a mark behind it stay
  two characters, also where Unicode has one for both; letters of scripts
  that run in different directions may be mixed; and joiners are refused
  wherever they stand.
-/
import ErrorContract.Text.Pieces
import ErrorContract.Text.Utf8
import ErrorContract.Url.Punycode

namespace ErrorContract.Domain

open ErrorContract

/-! ## §1. What a character is replaced by. -/

/-- Ranges of capitals, each with the distance to the small letters. -/
def capitals : List (Nat × Nat × Nat) := [
  (0x41, 0x5a, 32), (0xc0, 0xd6, 32), (0xd8, 0xde, 32), (0x388, 0x38a, 37), (0x38e, 0x38f, 63),
  (0x391, 0x3a1, 32), (0x3a3, 0x3ab, 32), (0x400, 0x40f, 80), (0x410, 0x42f, 32),
  (0x531, 0x556, 48)]

/-- Ranges in which every second character is a capital, the first one first, and its small
letter follows it. -/
def pairs : List (Nat × Nat) := [
  (0x100, 0x12f), (0x134, 0x137), (0x139, 0x13e), (0x141, 0x148), (0x14a, 0x177),
  (0x179, 0x17e), (0x1cd, 0x1dc), (0x1de, 0x1ef), (0x1f8, 0x21f), (0x222, 0x233),
  (0x370, 0x373), (0x376, 0x377), (0x3d8, 0x3ef), (0x460, 0x481), (0x48a, 0x4bf),
  (0x4c1, 0x4ce), (0x4d0, 0x52f), (0x1e00, 0x1e95), (0x1ea0, 0x1eff)]

/-- Characters with a replacement of their own. -/
def singles : List (Char × String) := [
  ('ª', "a"), ('²', "2"), ('³', "3"), ('µ', "μ"), ('¹', "1"), ('º', "o"), ('¼', "1⁄4"),
  ('½', "1⁄2"), ('¾', "3⁄4"), ('İ', "i̇"), ('Ĳ', "ij"), ('ĳ', "ij"), ('Ŀ', "l·"), ('ŀ', "l·"),
  ('ŉ', "ʼn"), ('Ÿ', "ÿ"), ('ſ', "s"), ('Ά', "ά"), ('Ό', "ό"), ('Ӏ', "ӏ"), ('ẞ', "ß"),
  ('℡', "tel"), ('™', "tm"), ('\u212a', "k"), ('\u212b', "å"), ('。', "."), ('｡', "."),
  ('ﬀ', "ff"), ('ﬁ', "fi"), ('ﬂ', "fl"), ('ﬃ', "ffi"), ('ﬄ', "ffl"), ('ﬅ', "st"), ('ﬆ', "st")]

/-- Ranges of characters that are dropped. -/
def unseen : List (Nat × Nat) := [
  (0xad, 0xad), (0x34f, 0x34f), (0x180b, 0x180d), (0x200b, 0x200b), (0x2060, 0x2060),
  (0x2064, 0x2064), (0xfe00, 0xfe0f), (0xfeff, 0xfeff), (0xe0100, 0xe01ef)]

/-- Ranges of characters beyond ASCII that no domain name may hold: controls, blanks, joiners,
marks of direction, and what is not for interchange. -/
def banned : List (Nat × Nat) := [
  (0x80, 0xa0), (0xa8, 0xa8), (0xaf, 0xaf), (0xb4, 0xb4), (0xb8, 0xb8), (0x1680, 0x1680),
  (0x180e, 0x180e), (0x2000, 0x200a), (0x200c, 0x200f), (0x2028, 0x202f), (0x205f, 0x205f),
  (0x2061, 0x2063), (0x2065, 0x206f), (0x3000, 0x3000), (0xe000, 0xf8ff), (0xfdd0, 0xfdef),
  (0xfff0, 0xffff), (0xe0000, 0xe00ff), (0xe01f0, 0x10ffff)]

/-- Ranges of marks that combine with the character before them. -/
def marks : List (Nat × Nat) := [
  (0x300, 0x36f), (0x483, 0x489), (0x591, 0x5bd), (0x610, 0x61a), (0x64b, 0x65f), (0x900, 0x903),
  (0x93a, 0x93c), (0x93e, 0x94f), (0x1ab0, 0x1aff), (0x1dc0, 0x1dff), (0x20d0, 0x20f0),
  (0x302a, 0x302f), (0x3099, 0x309a), (0xfe20, 0xfe2f)]

/-- Does one of the ranges hold the character? -/
def within (ranges : List (Nat × Nat)) (c : Char) : Bool :=
  ranges.any fun (low, high) => low ≤ c.toNat && c.toNat ≤ high

/-- The small letter of a letter, and any other character itself. -/
def small (c : Char) : Char :=
  let n := c.toNat
  match capitals.find? fun (low, high, _) => low ≤ n && n ≤ high with
  | some (_, _, distance) => Char.ofNat (n + distance)
  | none =>
    match pairs.find? fun (low, high) => low ≤ n && n ≤ high with
    | some (low, _) => if (n - low) % 2 = 0 then Char.ofNat (n + 1) else c
    | none => c

/-- What a character is replaced by. -/
def replacement (c : Char) : List Char :=
  match singles.find? fun (single, _) => single == c with
  | some (_, text) => text.toList
  | none =>
    if within unseen c then []
    else if within [(0xff01, 0xff5e)] c then [small (Char.ofNat (c.toNat - 0xfee0))]
    else [small c]

/-! ## §2. Labels. -/

/-- Must the character not stand in a domain name? -/
def isForbidden (c : Char) : Bool :=
  c ≤ ' ' || c == '\x7f' || within banned c ||
    ['%', '#', '/', ':', '<', '>', '?', '@', '[', '\\', ']', '^', '|'].contains c

/-- What a label in Punycode starts with. -/
def marker : List Char := ['x', 'n', '-', '-']

/-- May this stand for itself as a label: replaced, without forbidden characters, and no mark
in front of it? -/
def isPlain (label : List Char) : Bool :=
  label.all (fun c => !isForbidden c && replacement c == [c] && c != '.') &&
    !(label.head?.any (within marks))

/-- A label in ASCII; absent if it may not be one. -/
def labelToAscii (label : List Char) : Option (List Char) :=
  if marker.isPrefixOf label then do
    let inner ← Punycode.decode (label.drop marker.length)
    if inner.all Punycode.isBasic || !isPlain inner then none else some label
  else if label.all Punycode.isBasic then some label
  else if isPlain label then some (marker ++ Punycode.encode label)
  else none

/-! ## §3. Names. -/

/-- **The name of a domain in ASCII**; absent if it may not be one. -/
def toAscii (bytes : List UInt8) : Option (List Char) :=
  match Utf8.decode bytes with
  | .error _ => none
  | .ok cs =>
    let replaced := cs.flatMap replacement
    if replaced.any isForbidden then none
    else do
      let labels ← (Pieces.cut (· == '.') replaced).mapM labelToAscii
      return List.intercalate ['.'] labels

end ErrorContract.Domain
