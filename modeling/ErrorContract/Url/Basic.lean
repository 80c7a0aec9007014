/-
  ErrorContract.Url.Basic
  ───────────────────────
  **URLS AND THEIR NORMAL TEXT.**

  A URL has a scheme, possibly an authority, a path, and possibly a query
  and a fragment.  The path is a list of segments, or an opaque text where
  nothing but text follows the scheme.  Components are kept as they are
  written: percent encoding is part of them.
-/
import ErrorContract.Net.Address

namespace ErrorContract

open Net

/-! ## §1. Components. -/

/-- The host of a URL. -/
inductive Url.Host where
  /-- A name, which may be empty. -/
  | name (text : String)
  | v4 (address : Ipv4)
  | v6 (address : Ipv6)
  deriving Repr, DecidableEq

/-- Who to ask: credentials, a host and a TCP port. -/
structure Url.Authority where
  username : String
  password : String
  host : Url.Host
  /-- Absent where it is the scheme's own. -/
  portNumber : Option Nat
  deriving Repr, DecidableEq

/-- What to ask for. -/
inductive Url.Path where
  | segments (list : List String)
  | opaqueText (text : String)
  deriving Repr, DecidableEq

/-- A URL. -/
structure Url where
  scheme : String
  authority : Option Url.Authority
  path : Url.Path
  query : Option String
  fragment : Option String
  deriving Repr, DecidableEq

namespace Url

/-! ## §2. Schemes. -/

/-- The TCP port that a scheme stands for, if it is one of those whose URLs have a host. -/
def ownPort (scheme : String) : Option Nat :=
  if scheme = "http" || scheme = "ws" then some 80
  else if scheme = "https" || scheme = "wss" then some 443
  else if scheme = "ftp" then some 21
  else none

/-- Is the scheme one whose URLs always have a host? -/
def hasOwnPort (scheme : String) : Bool := (ownPort scheme).isSome

/-- Does the scheme treat backslashes as slashes? -/
def isSpecial (scheme : String) : Bool := hasOwnPort scheme || scheme = "file"

/-! ## §3. Text. -/

/-- The text of a host. -/
def Host.text : Host → String
  | .name text => text
  | .v4 address => address.text
  | .v6 address => "[" ++ address.compressed ++ "]"

/-- Credentials as they stand before a host; a password alone still has its colon. -/
def Authority.credentials (a : Authority) : String :=
  if a.username.isEmpty && a.password.isEmpty then ""
  else a.username ++ (if a.password.isEmpty then "" else ":" ++ a.password) ++ "@"

/-- The text of an authority. -/
def Authority.text (a : Authority) : String :=
  a.credentials ++ a.host.text ++
    (match a.portNumber with
      | some n => ":" ++ Decimal.text n
      | none => "")

/-- The text of a path. -/
def Path.text : Path → String
  | .segments list => String.join (list.map ("/" ++ ·))
  | .opaqueText text => text

/-- What stands between the scheme and the path. Without an authority, a path that begins with an
empty segment is set apart, lest that segment be read as one. -/
def front (u : Url) : String :=
  match u.authority, u.path with
  | some a, _ => "//" ++ a.text
  | none, .segments ("" :: _ :: _) => "/."
  | none, _ => ""

/-- **The normal text of a URL.** -/
def text (u : Url) : String :=
  u.scheme ++ ":" ++ u.front ++ u.path.text ++
    (match u.query with
      | some q => "?" ++ q
      | none => "") ++
    (match u.fragment with
      | some f => "#" ++ f
      | none => "")

end Url

end ErrorContract
