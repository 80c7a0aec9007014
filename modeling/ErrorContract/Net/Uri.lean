/-
  ErrorContract.Net.Uri
  ─────────────────────
  **WHAT CAN BE REQUESTED OVER HTTP.**

  A URI that a request can be sent to is stricter than a URL: it has a host,
  or is nothing but one; a percent sign may stand in the credentials but not
  in the host; and spaces and a few other characters stand nowhere.
-/
import ErrorContract.Text.Utf8

namespace ErrorContract.Net.Uri

open ErrorContract

/-! ## §1. Characters. -/

/-- May the character stand in an authority, or end one? -/
def isUriChar (c : Char) : Bool :=
  c.isAlphanum || "!#$&'()*+,-./:;=?@[]_~".toList.contains c

/-- May the character stand in a scheme? -/
def isSchemeChar (c : Char) : Bool := c.isAlphanum || c == '+' || c == '-' || c == '.'

/-- Does the character end an authority? -/
def endsAuthority (c : Char) : Bool := c == '/' || c == '?' || c == '#'

/-- May the character stand in a path? -/
def isPathChar (c : Char) : Bool := '!' ≤ c && (['<', '>', '`'].all (c != ·))

/-- May the character stand in a query? -/
def isQueryChar (c : Char) : Bool := '!' ≤ c && (['"', '<', '>'].all (c != ·))

/-! ## §2. Parts. -/

/-- The longest scheme. -/
def schemeLimit : Nat := 64

/-- What follows the scheme and its slashes; absent if there is no scheme. -/
def splitScheme (cs : List Char) : Option (List Char × List Char) :=
  match cs.span isSchemeChar with
  | (scheme, ':' :: '/' :: '/' :: rest) => some (scheme, rest)
  | _ => none

/-- What was seen of an authority. -/
structure AuthorityState where
  colons : Nat := 0
  opened : Bool := false
  closed : Bool := false
  percent : Bool := false
  /-- Was the last character an at-sign? -/
  atEnd : Bool := false

/-- How many colons may follow each other in an address. -/
def colonLimit : Nat := 8

/-- The state after a character, if it may stand there. -/
def AuthorityState.next (s : AuthorityState) (c : Char) : Option AuthorityState :=
  let s := { s with atEnd := c == '@' }
  if c = ':' then
    if s.colons < colonLimit then some { s with colons := s.colons + 1 } else none
  else if c = '[' then
    if s.percent || s.opened then none else some { s with opened := true }
  else if c = ']' then
    if !s.opened || s.closed then none
    else some { s with closed := true, colons := 0, percent := false }
  else if c = '@' then some { s with colons := 0, percent := false }
  else if c = '%' then some { s with percent := true }
  else if isUriChar c then some s
  else none

/-- May an authority end here? -/
def AuthorityState.mayEnd (s : AuthorityState) : Bool :=
  s.opened == s.closed && s.colons ≤ 1 && !s.atEnd && !s.percent

/-- Is the text an authority? -/
def isAuthority (cs : List Char) : Bool :=
  match cs.foldlM AuthorityState.next {} with
  | some s => s.mayEnd
  | none => false

/-- Is the text a path, possibly with a query and a fragment? -/
def isTarget (cs : List Char) : Bool :=
  let (path, rest) := cs.span fun c => c != '?' && c != '#'
  path.all isPathChar &&
    match rest with
    | '?' :: query => (query.takeWhile (· != '#')).all isQueryChar
    | _ => true

/-! ## §3. URIs. -/

/-- The greatest number of bytes in a URI. -/
def sizeLimit : Nat := 65534

/-- **Can the text be requested?** -/
def isValid (text : String) : Bool :=
  let cs := text.toList
  !cs.isEmpty && text.utf8ByteSize ≤ sizeLimit &&
    if cs.head? == some '/' then isTarget cs
    else if cs == ['*'] then true
    else match splitScheme cs with
      | some (scheme, rest) =>
        let (authority, target) := rest.span (!endsAuthority ·)
        scheme.length ≤ schemeLimit && !authority.isEmpty && isAuthority authority && isTarget target
      | none => isAuthority cs && cs.all (!endsAuthority ·)

end ErrorContract.Net.Uri
