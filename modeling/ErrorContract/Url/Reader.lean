/-
  ErrorContract.Url.Reader
  ────────────────────────
  **READING URLS.**

  Reading is generous: blanks around a URL and line ends in it are dropped,
  backslashes count as slashes where a scheme has hosts, steps through `.`
  and `..` are taken at once, and characters that may not stand in a
  component are percent-encoded.  What is refused is an input without a
  scheme, and hosts and ports that cannot be one.
-/
import ErrorContract.Url.Host

namespace ErrorContract.Url

open ErrorContract

/-! ## §1. Which characters are encoded where. -/

/-- Characters encoded in a fragment. -/
def inFragment (c : Char) : Bool := isControl c || [' ', '"', '<', '>', '`'].contains c

/-- Characters encoded in a path. -/
def inPath (c : Char) : Bool := inFragment c || ['#', '?', '{', '}'].contains c

/-- Characters encoded in credentials. -/
def inCredentials (c : Char) : Bool :=
  inPath c || ['/', ':', ';', '=', '@', '[', '\\', ']', '^', '|'].contains c

/-- Characters encoded in a query. -/
def inQuery (special : Bool) (c : Char) : Bool :=
  isControl c || [' ', '"', '#', '<', '>'].contains c || (special && c == '\'')

/-! ## §2. Scheme. -/

/-- Is the character a letter of ASCII? -/
def isLetter (c : Char) : Bool := ('a' ≤ c && c ≤ 'z') || ('A' ≤ c && c ≤ 'Z')

/-- May the character stand in a scheme? -/
def isSchemeChar (c : Char) : Bool :=
  isLetter c || Decimal.isDigit c || c == '+' || c == '-' || c == '.'

/-- Without controls and spaces around it, and without tabs and line ends in it. -/
def clean (cs : List Char) : List Char :=
  let trim (cs : List Char) : List Char := cs.dropWhile (· ≤ ' ')
  ((trim (trim cs).reverse).reverse).filter fun c => c != '\t' && c != '\n' && c != '\r'

/-- The scheme in small letters, and what follows its colon. -/
def splitScheme (cs : List Char) : Option (String × List Char) :=
  match cs.head?, cs.span isSchemeChar with
  | some c, (scheme, ':' :: rest) =>
    if isLetter c then some (String.ofList (scheme.map Char.toLower), rest) else none
  | _, _ => none

/-! ## §3. Authority. -/

/-- Does the character end an authority? -/
def endsAuthority (special : Bool) (c : Char) : Bool :=
  c == '/' || c == '?' || c == '#' || (special && c == '\\')

/-- The index of the last at-sign before the end of the authority. -/
def lastAt (special : Bool) (cs : List Char) : Option Nat :=
  let authority := cs.takeWhile (!endsAuthority special ·)
  match authority.reverse.findIdx? (· == '@') with
  | some i => some (authority.length - 1 - i)
  | none => none

/-- Username and password, and what follows their at-sign. -/
def splitCredentials (special : Bool) (cs : List Char) :
    Except Fault ((String × String) × List Char) :=
  match lastAt special cs with
  | none => .ok (("", ""), cs)
  | some n =>
    let rest := cs.drop (n + 1)
    if n = 0 && (rest.head?.any (endsAuthority special)) then .error .emptyHost
    else
      let (username, password) := (cs.take n).span (· != ':')
      let written (cs : List Char) : String := String.ofList (Percent.encode inCredentials cs)
      .ok ((written username, written (password.drop 1)), rest)

/-- The characters of a host, and what follows them; a colon between brackets belongs to it. -/
def splitHost (special : Bool) : Bool → List Char → List Char × List Char
  | _, [] => ([], [])
  | bracketed, c :: rest =>
    if (c == ':' && !bracketed) || endsAuthority special c then ([], c :: rest)
    else
      let bracketed := if c = '[' then true else if c = ']' then false else bracketed
      let (host, rest) := splitHost special bracketed rest
      (c :: host, rest)

/-- The TCP port behind its colon, and what follows it; none if there are no digits. -/
def splitPort (cs : List Char) : Except Fault (Option Nat × List Char) :=
  let (digits, rest) := cs.span Decimal.isDigit
  let n := Decimal.value digits
  if 65535 < n then .error .invalidPort
  else if rest.head?.any (!endsAuthority true ·) then .error .invalidPort
  else .ok (if digits.isEmpty then none else some n, rest)

/-- The authority, and what follows it. -/
def readAuthority (toAscii : ToAscii) (scheme : String) (cs : List Char) :
    Except Fault (Authority × List Char) := do
  let special := isSpecial scheme
  let ((username, password), cs) ← splitCredentials special cs
  let (host, cs) := splitHost special false cs
  if special && host.isEmpty then .error .emptyHost
  let host ← if special then readHost toAscii host else readOpaqueHost host
  match cs with
  | ':' :: rest =>
    if host = .name "" then .error .emptyHost
    let (n, rest) ← splitPort rest
    return (⟨username, password, host, if n = ownPort scheme then none else n⟩, rest)
  | cs => return (⟨username, password, host, none⟩, cs)

/-! ## §4. Path. -/

/-- Is the segment a single dot? -/
def isDot (segment : List Char) : Bool :=
  let s := segment.map Char.toLower
  s == ['.'] || s == ['%', '2', 'e']

/-- Is the segment a double dot? -/
def isDoubleDot (segment : List Char) : Bool :=
  let dot := ['%', '2', 'e']
  let s := segment.map Char.toLower
  s == ['.', '.'] || s == '.' :: dot || s == dot ++ ['.'] || s == dot ++ dot

/-- Is the text a letter and a colon or a bar, as the name of a drive? -/
def isDrive : List Char → Bool
  | [c, d] => isLetter c && (d == ':' || d == '|')
  | _ => false

/-- The path one step up, last segment first. The name of a drive at its front stays. -/
def stepUp (file : Bool) : List (List Char) → List (List Char)
  | [] => []
  | [segment] => if file && isDrive segment then [segment] else []
  | _ :: rest => rest

/-- Take the steps of a path; `path` is what was taken so far, last segment first. -/
def walk (file : Bool) (path : List (List Char)) : List (List Char) → List (List Char)
  | [] => path.reverse
  | segment :: rest =>
    let last := rest.isEmpty
    if isDoubleDot segment then
      let path := stepUp file path
      walk file (if last then [] :: path else path) rest
    else if isDot segment then walk file (if last then [] :: path else path) rest
    else
      let written := match segment with
        | [c, '|'] => if file && path.isEmpty && isLetter c then [c, ':'] else segment
        | _ => segment
      walk file (Percent.encode inPath written :: path) rest

/-- A path without empty segments in front. -/
def dropEmptyFront : List (List Char) → List (List Char)
  | [] :: segment :: rest => dropEmptyFront (segment :: rest)
  | path => path

/-- The segments of a path behind its first slash. -/
def readSegments (scheme : String) (cs : List Char) : Path :=
  let slash (c : Char) : Bool := c == '/' || (isSpecial scheme && c == '\\')
  let path := walk (scheme = "file") [] (Pieces.cut slash cs)
  let path := if scheme = "file" then dropEmptyFront path else path
  .segments (path.map String.ofList)

/-- The path behind an authority. -/
def readPath (scheme : String) (cs : List Char) : Path :=
  match cs with
  | [] => if isSpecial scheme then .segments [""] else .segments []
  | '/' :: rest => readSegments scheme rest
  | '\\' :: rest => readSegments scheme (if isSpecial scheme then rest else '\\' :: rest)
  | cs => readSegments scheme cs

/-! ## §5. Query and fragment. -/

/-- Does the character end a path? -/
def endsPath (c : Char) : Bool := c == '?' || c == '#'

/-- Query and fragment. -/
def readTail (special : Bool) (cs : List Char) : Option String × Option String :=
  let (query, fragment) := cs.span (· != '#')
  (match query with
    | '?' :: q => some (String.ofList (Percent.encode (inQuery special) q))
    | _ => none,
    match fragment with
    | '#' :: f => some (String.ofList (Percent.encode inFragment f))
    | _ => none)

/-! ## §6. URLs. -/

/-- A URL with the authority that a file has, and a path. -/
def fileUrl (host : Host) (cs : List Char) : Url :=
  let (path, tail) := cs.span (!endsPath ·)
  let (query, fragment) := readTail true tail
  ⟨"file", some ⟨"", "", host, none⟩, readPath "file" path, query, fragment⟩

/-- The URL of a file behind its scheme. -/
def readFile (toAscii : ToAscii) (cs : List Char) : Except Fault Url := do
  let slash (c : Char) : Bool := c == '/' || c == '\\'
  match cs with
  | a :: b :: rest =>
    if slash a && slash b then
      let (host, rest') := rest.span (!endsAuthority true ·)
      if isDrive host then return fileUrl (.name "") rest
      else if host.isEmpty then return fileUrl (.name "") rest'
      else
        let host ← readHost toAscii host
        return fileUrl (if host = .name "localhost" then .name "" else host) rest'
    else return fileUrl (.name "") cs
  | cs => return fileUrl (.name "") cs

/-- A URL with an authority, behind the slashes in front of it. -/
def readHosted (toAscii : ToAscii) (scheme : String) (cs : List Char) : Except Fault Url := do
  let (authority, cs) ← readAuthority toAscii scheme cs
  let (path, tail) := cs.span (!endsPath ·)
  let (query, fragment) := readTail (isSpecial scheme) tail
  return ⟨scheme, some authority, readPath scheme path, query, fragment⟩

/-- A URL without an authority. -/
def readBare (scheme : String) (cs : List Char) : Url :=
  let (path, tail) := cs.span (!endsPath ·)
  let (query, fragment) := readTail false tail
  let path := match path with
    | '/' :: rest => readSegments scheme rest
    | path => .opaqueText (String.ofList (Percent.encode isControl path))
  ⟨scheme, none, path, query, fragment⟩

/-- **Read a URL**, with a conversion of domain names into ASCII. -/
def parse (toAscii : ToAscii) (s : String) : Except Fault Url :=
  match splitScheme (clean s.toList) with
  | none => .error .noScheme
  | some (scheme, rest) =>
    if scheme = "file" then readFile toAscii rest
    else if isSpecial scheme then
      readHosted toAscii scheme (rest.dropWhile fun c => c == '/' || c == '\\')
    else match rest with
      | '/' :: '/' :: rest => readHosted toAscii scheme rest
      | rest => .ok (readBare scheme rest)

end ErrorContract.Url
