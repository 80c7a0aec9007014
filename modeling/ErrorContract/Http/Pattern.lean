/-
  ErrorContract.Http.Pattern
  ──────────────────────────
  **PATHS WITH HOLES.**

  A pattern is a path in which braces name what may vary:

      a name in braces            any text up to the next slash
      a star and a name           all that is left of the path

  A brace that stands for itself is written twice.  Behind a capture comes a
  slash or nothing.  Two patterns conflict when no rule could tell which of
  them a path is meant for.
-/

namespace ErrorContract.Http

/-! ## §1. Patterns. -/

/-- A part of a pattern. -/
inductive Part where
  /-- A character that stands for itself. -/
  | char (c : Char)
  /-- Any text up to the next slash. -/
  | capture (name : String)
  /-- All that is left. -/
  | rest (name : String)
  deriving Repr, DecidableEq

/-- A pattern. -/
abbrev Pattern := List Part

/-- A character of a written pattern, braces told apart from braces that stand for themselves. -/
inductive Mark where
  | char (c : Char)
  | opening
  | closing
  deriving Repr, DecidableEq

/-- The character that a mark is written as. -/
def Mark.written : Mark → Char
  | .char c => c
  | .opening => '{'
  | .closing => '}'

/-- The marks of a written pattern. -/
def marks : List Char → List Mark
  | [] => []
  | '{' :: '{' :: cs => .char '{' :: marks cs
  | '}' :: '}' :: cs => .char '}' :: marks cs
  | '{' :: cs => .opening :: marks cs
  | '}' :: cs => .closing :: marks cs
  | c :: cs => .char c :: marks cs

/-! ## §2. Reading. -/

/-- May the marks follow a capture? -/
def mayFollow : List Mark → Bool
  | [] => true
  | m :: _ => m == .char '/'

/-- May the character not stand in a name, of which `before` was read?  The first one is only asked
not to be a closing brace, not even a doubled one. -/
def endsName (before : List Char) (c : Char) : Bool :=
  if before.isEmpty then c == '}' else c == '*' || c == '/'

/-- The parts that marks stand for; inside braces, `name` is what was read of the name, last
character first. -/
def partsOf (name : Option (List Char)) : List Mark → Option Pattern
  | [] => if name.isNone then some [] else none
  | m :: more =>
    match name, m with
    | none, .char c => (partsOf none more).map (.char c :: ·)
    | none, .opening => partsOf (some []) more
    | none, .closing => none
    | some read, .closing =>
      match read.reverse with
      | [] | ['*'] => none
      | '*' :: n => if more.isEmpty then some [.rest (String.ofList n)] else none
      | n =>
        if mayFollow more then (partsOf none more).map (.capture (String.ofList n) :: ·) else none
    | some read, m =>
      if endsName read m.written then none else partsOf (some (m.written :: read)) more

/-- How many captures a pattern may have. -/
def captureLimit : Nat := 25

/-- Is the part a capture up to the next slash? -/
def Part.isCapture : Part → Bool
  | .capture _ => true
  | _ => false

/-- Does any segment begin with a colon or a star, which once marked captures? `start` tells
whether one begins here. -/
def hasReserved : Bool → List Char → Bool
  | _, [] => false
  | start, c :: cs => (start && (c == ':' || c == '*')) || hasReserved (c == '/') cs

/-- **Read a pattern.** -/
def Pattern.parse (path : String) : Option Pattern :=
  let cs := path.toList
  if cs.head? != some '/' || hasReserved true cs then none
  else (partsOf none (marks cs)).filter fun p => p.countP Part.isCapture ≤ captureLimit

/-! ## §3. Conflicts. -/

/-- **Do two patterns conflict?** They do if they are the same but for names, or if one captures
all that is left where the other captures something too. -/
def Pattern.conflict : Pattern → Pattern → Bool
  | [], [] => true
  | .char a :: p, .char b :: q => a == b && Pattern.conflict p q
  | .capture _ :: p, .capture _ :: q => Pattern.conflict p q
  | .rest _ :: _, .rest _ :: _ => true
  | .rest _ :: _, .capture _ :: _ => true
  | .capture _ :: _, .rest _ :: _ => true
  | _, _ => false

end ErrorContract.Http
