/-
  ErrorContract.Net.Address
  ─────────────────────────
  **SOCKET ADDRESSES.**

  An address is an IP address and a TCP port.  Version 4 is written as four
  decimal octets, version 6 in brackets as eight groups of hexadecimal
  digits, the longest run of zero groups left out once.
-/
import ErrorContract.Text.Decimal
import ErrorContract.Text.Front
import ErrorContract.Text.Radix

namespace ErrorContract.Net

open ErrorContract

/-! ## §1. Addresses. -/

/-- An address of version 4. -/
structure Ipv4 where
  a : UInt8
  b : UInt8
  c : UInt8
  d : UInt8
  deriving Repr, DecidableEq

/-- An address of version 6: eight groups of sixteen bits. -/
structure Ipv6 where
  groups : List UInt16
  deriving Repr, DecidableEq

/-- An IP address; one of version 6 may name a scope. -/
inductive Ip where
  | v4 (address : Ipv4)
  | v6 (address : Ipv6) (scope : Nat)
  deriving Repr, DecidableEq

/-- A socket address. -/
structure SocketAddress where
  ip : Ip
  portNumber : Nat
  deriving Repr, DecidableEq

/-! ## §2. Writing. -/

/-- The text of an address of version 4. -/
def Ipv4.text (i : Ipv4) : String :=
  String.intercalate "." ([i.a, i.b, i.c, i.d].map fun o => Decimal.text o.toNat)

/-- Start and length of the longest run of zero groups, the first of several. -/
def longestZeroRun (groups : List UInt16) : Nat × Nat := go 0 (0, 0) (0, 0) groups
where
  go (position : Nat) (current best : Nat × Nat) : List UInt16 → Nat × Nat
    | [] => best
    | g :: rest =>
      if g = 0 then
        let current := if current.2 = 0 then (position, 1) else (current.1, current.2 + 1)
        go (position + 1) current (if best.2 < current.2 then current else best) rest
      else go (position + 1) (0, 0) best rest

/-- Groups separated by colons. -/
def groupsText (groups : List UInt16) : String :=
  String.intercalate ":" (groups.map fun g => String.ofList (Radix.hex g.toNat))

/-- The groups of an address, the longest run of at least two zero groups left out. -/
def Ipv6.compressed (i : Ipv6) : String :=
  let (start, length) := longestZeroRun i.groups
  if 1 < length then
    groupsText (i.groups.take start) ++ "::" ++ groupsText (i.groups.drop (start + length))
  else groupsText i.groups

/-- An address of version 4 that is written as one of version 6. -/
def Ipv6.mapped? (i : Ipv6) : Option Ipv4 :=
  match i.groups with
  | [0, 0, 0, 0, 0, 0xffff, x, y] =>
    some ⟨(x >>> 8).toUInt8, x.toUInt8, (y >>> 8).toUInt8, y.toUInt8⟩
  | _ => none

/-- The text of an address of version 6. -/
def Ipv6.text (i : Ipv6) : String :=
  match i.mapped? with
  | some v4 => "::ffff:" ++ v4.text
  | none => i.compressed

/-- **The text of a socket address.** -/
def SocketAddress.text (s : SocketAddress) : String :=
  (match s.ip with
    | .v4 address => address.text
    | .v6 address 0 => "[" ++ address.text ++ "]"
    | .v6 address scope => "[" ++ address.text ++ "%" ++ Decimal.text scope ++ "]") ++
  ":" ++ Decimal.text s.portNumber

/-! ## §3. Reading. -/

/-- How a number in an address is written. -/
structure NumberForm where
  radix : Nat
  /-- The greatest number of digits, if there is one. -/
  digits : Option Nat
  /-- Whether zeros may stand in front. -/
  leadingZeros : Bool
  /-- The greatest number. -/
  greatest : Nat

/-- An octet of version 4. -/
def octetForm : NumberForm := ⟨10, some 3, false, 255⟩

/-- A group of version 6. -/
def groupForm : NumberForm := ⟨16, some 4, true, 65535⟩

/-- A TCP port. -/
def portForm : NumberForm := ⟨10, none, true, 65535⟩

/-- A scope. -/
def scopeForm : NumberForm := ⟨10, none, true, Nat.pow 2 32 - 1⟩

/-- Read a number. -/
def NumberForm.read (form : NumberForm) : Front Nat := do
  let digits ← Front.run (Radix.isDigit form.radix)
  let n := Radix.value form.radix digits
  let few := match form.digits with
    | some most => digits.length ≤ most
    | none => true
  let plain := form.leadingZeros || digits.length = 1 || digits.head? != some '0'
  if !digits.isEmpty && few && plain && n ≤ form.greatest then return n else Front.refuse

/-- Read an address of version 4. -/
def readIpv4 : Front Ipv4 := do
  let a ← octetForm.read
  Front.given ['.']
  let b ← octetForm.read
  Front.given ['.']
  let c ← octetForm.read
  Front.given ['.']
  let d ← octetForm.read
  return ⟨a.toUInt8, b.toUInt8, c.toUInt8, d.toUInt8⟩

/-- Read with a colon in front, unless it is the first group. -/
def separated (first : Bool) (read : Front α) : Front α := do
  unless first do Front.given [':']
  read

/-- The two groups that hold an address of version 4. -/
def Ipv4.groups (i : Ipv4) : List UInt16 :=
  [i.a.toUInt16 <<< 8 ||| i.b.toUInt16, i.c.toUInt16 <<< 8 ||| i.d.toUInt16]

/-- Read at most `limit` groups; the last two may be an address of version 4. Also whether they
were. -/
def readGroups (first : Bool) : Nat → Front (List UInt16 × Bool)
  | 0 => return ([], false)
  | limit + 1 => do
    let v4 ← if limit = 0 then pure none else Front.optional (separated first readIpv4)
    match v4 with
    | some v4 => return (v4.groups, true)
    | none =>
      match ← Front.optional (separated first groupForm.read) with
      | some g =>
        let (gs, v4) ← readGroups false limit
        return (g.toUInt16 :: gs, v4)
      | none => return ([], false)

/-- Read an address of version 6. -/
def readIpv6 : Front Ipv6 := do
  let (front, v4) ← readGroups true 8
  if front.length = 8 then return ⟨front⟩
  else if v4 then Front.refuse
  else
    Front.given [':', ':']
    let (back, _) ← readGroups true (7 - front.length)
    return ⟨front ++ List.replicate (8 - front.length - back.length) 0 ++ back⟩

/-- Read a TCP port behind its colon. -/
def readPortNumber : Front Nat := do
  Front.given [':']
  portForm.read

/-- Read a socket address of version 4. -/
def readV4 : Front SocketAddress := do
  let address ← readIpv4
  return ⟨.v4 address, ← readPortNumber⟩

/-- Read a scope behind its percent sign. -/
def readScope : Front Nat := do
  Front.given ['%']
  scopeForm.read

/-- Read a socket address of version 6; the scope is zero if none is written. -/
def readV6 : Front SocketAddress := do
  Front.given ['[']
  let address ← readIpv6
  let scope ← Front.optional readScope
  Front.given [']']
  return ⟨.v6 address (scope.getD 0), ← readPortNumber⟩

/-- **Read a socket address.** -/
def SocketAddress.parse (s : String) : Option SocketAddress :=
  Front.whole (Front.orElse readV4 readV6) s

/-- What is said of a text that is no socket address. -/
def SocketAddress.faultMessage : String := "invalid socket address syntax"

end ErrorContract.Net
