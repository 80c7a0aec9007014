/-
  ErrorContract.Url.Host
  ──────────────────────
  **READING HOSTS.**

  In a scheme whose URLs have hosts a host is an address in brackets, or a
  domain name; a name that ends in a number must be an address of version 4,
  whose parts may be written in octal or hexadecimal.  In other schemes the
  host is any text without forbidden characters.

  How a domain name is brought into ASCII is Unicode's affair and not that
  of URLs: the reader is given a conversion (`ToAscii`) and works with any.
-/
import ErrorContract.Text.Percent
import ErrorContract.Text.Pieces
import ErrorContract.Url.Basic

namespace ErrorContract.Url

open ErrorContract Net

/-! ## §1. Faults. -/

/-- Why a text is no URL. -/
inductive Fault where
  | noScheme
  | emptyHost
  | invalidDomain
  | invalidPort
  | invalidIpv4
  | invalidIpv6
  | invalidCharacter
  deriving Repr, DecidableEq

/-- A fault in words. -/
def Fault.message : Fault → String
  | .noScheme => "relative URL without a base"
  | .emptyHost => "empty host"
  | .invalidDomain => "invalid international domain name"
  | .invalidPort => "invalid port number"
  | .invalidIpv4 => "invalid IPv4 address"
  | .invalidIpv6 => "invalid IPv6 address"
  | .invalidCharacter => "invalid domain character"

/-! ## §2. Addresses of version 4. -/

/-- A number in decimal, octal behind a zero, or hexadecimal behind `0x`. -/
def ipv4Number (cs : List Char) : Option Nat :=
  let numeral (radix : Nat) (ds : List Char) : Option Nat :=
    if ds.all (Radix.isDigit radix) then some (Radix.value radix ds) else none
  match cs with
  | [] => none
  | '0' :: 'x' :: ds | '0' :: 'X' :: ds => numeral 16 ds
  | '0' :: d :: ds => numeral 8 (d :: ds)
  | ds => numeral 10 ds

/-- Does a name end in a number, so that it can only be an address? -/
def endsInNumber (name : List Char) : Bool :=
  let check (last : List Char) : Bool :=
    (!last.isEmpty && last.all Decimal.isDigit) || (ipv4Number last).isSome
  match (Pieces.cut (· == '.') name).reverse with
  | [] => false
  | [] :: last :: _ => check last
  | last :: _ => check last

/-- The address with the given number. -/
def ipv4OfNat (n : Nat) : Ipv4 :=
  ⟨(n / 0x1000000).toUInt8, (n / 0x10000).toUInt8, (n / 0x100).toUInt8, n.toUInt8⟩

/-- An address of version 4: all parts but the last are octets, the last fills what is left. -/
def readIpv4Host (name : List Char) : Option Ipv4 := do
  let parts := Pieces.cut (· == '.') name
  let parts := if parts.getLast? == some [] then parts.dropLast else parts
  if 4 < parts.length then none
  let numbers ← parts.mapM ipv4Number
  let last ← numbers.getLast?
  let front := numbers.dropLast
  if front.any (255 < ·) || Nat.pow 256 (4 - front.length) ≤ last then none
  let high := front.foldl (fun n octet => n * 256 + octet) 0
  return ipv4OfNat (high * Nat.pow 256 (4 - front.length) + last)

/-! ## §3. Hosts. -/

/-- An address of version 6 between brackets, the opening one of which has been read. -/
def readIpv6Host (cs : List Char) : Except Fault Host :=
  match cs.getLast? with
  | some ']' =>
    match readIpv6 cs.dropLast with
    | some (address, []) => .ok (.v6 address)
    | _ => .error .invalidIpv6
  | _ => .error .invalidIpv6

/-- **What brings a domain name into ASCII**, given its bytes; absent if they are no name. -/
abbrev ToAscii := List UInt8 → Option (List Char)

/-- The host that a name in ASCII stands for. -/
def nameHost (name : List Char) : Except Fault Host :=
  if name.isEmpty then .error .emptyHost
  else if endsInNumber name then
    match readIpv4Host name with
    | some address => .ok (.v4 address)
    | none => .error .invalidIpv4
  else .ok (.name (String.ofList name))

/-- The host of a URL that always has one. -/
def readHost (toAscii : ToAscii) (cs : List Char) : Except Fault Host :=
  match cs with
  | '[' :: inside => readIpv6Host inside
  | cs =>
    match toAscii (Percent.decode (Utf8.encode (String.ofList cs))) with
    | none => .error .invalidDomain
    | some name => nameHost name

/-- Must the character not stand in the host of a URL of any other scheme? -/
def isForbidden (c : Char) : Bool :=
  ['\x00', '\t', '\n', '\r', ' ', '#', '/', ':', '<', '>', '?', '@', '[', '\\', ']', '^',
    '|'].contains c

/-- Is the character a control of ASCII? -/
def isControl (c : Char) : Bool := c < ' ' || c == '\x7f'

/-- The host of a URL of any other scheme. -/
def readOpaqueHost (cs : List Char) : Except Fault Host :=
  match cs with
  | '[' :: inside => readIpv6Host inside
  | cs =>
    if cs.any isForbidden then .error .invalidCharacter
    else .ok (.name (String.ofList (Percent.encode isControl cs)))

end ErrorContract.Url
