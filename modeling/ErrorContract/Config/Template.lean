/-
  ErrorContract.Config.Template
  ─────────────────────────────
  **PLACEHOLDERS IN A CONFIGURATION TEXT.**

      \x7b\x7b env.NAME \x7d\x7d        \x7b\x7b env.NAME | default("text") \x7d\x7d

  A line is cut into single characters and placeholders before any variable
  is looked at, so what a variable holds never changes where a placeholder
  is, and is never scanned itself.  A line whose first character that is not
  blank is `#` is a comment and holds no placeholders.
-/
import ErrorContract.Text.Blank
import ErrorContract.Config.Environment

namespace ErrorContract.Template

open ErrorContract

/-! ## §1. Placeholders. -/

/-- A placeholder: its key, and its default if it has one. -/
structure Placeholder where
  key : List Char
  default : Option (List Char)
  deriving Repr, DecidableEq

/-- A letter or a digit of ASCII, an underscore or a point. -/
def isKeyChar (c : Char) : Bool :=
  ('A' ≤ c && c ≤ 'Z') || ('a' ≤ c && c ≤ 'z') || ('0' ≤ c && c ≤ '9') || c == '_' || c == '.'

/-- What opens a placeholder. -/
def opening : List Char := ['{', '{']

/-- What closes a placeholder. -/
def closing : List Char := ['}', '}']

/-- What stands before the text of a default. -/
def defaultOpening : List Char := "default(\"".toList

/-- What stands behind the text of a default. -/
def defaultClosing : List Char := ['"', ')']

/-- What follows a given front, if the text begins with it. -/
def after? : List Char → List Char → Option (List Char)
  | [], cs => some cs
  | _ :: _, [] => none
  | a :: front, c :: cs => if a = c then after? front cs else none

/-- The default part, if there is a bar, and what follows it. -/
def defaultPart : List Char → Option (Option (List Char) × List Char)
  | '|' :: cs => do
    let cs ← after? defaultOpening (Blank.skip cs)
    let cs' ← after? defaultClosing (cs.dropWhile (· != '"'))
    return (some (cs.takeWhile (· != '"')), cs')
  | cs => some (none, cs)

/-- **The placeholder at the front of a text**, and what follows it. -/
def placeholder? (cs : List Char) : Option (Placeholder × List Char) := do
  let cs ← after? opening cs
  let cs := Blank.skip cs
  let key := cs.takeWhile isKeyChar
  if key.isEmpty then none
  else
    let (default, cs) ← defaultPart (Blank.skip (cs.dropWhile isKeyChar))
    let cs ← after? closing (Blank.skip cs)
    return (⟨key, default⟩, cs)

/-! ## §2. Reading gets shorter. -/

theorem length_of_after? {a cs r : List Char} (h : after? a cs = some r) :
    cs.length = a.length + r.length := by
  induction a generalizing cs with
  | nil => simp_all [after?]
  | cons x a ih =>
    cases cs with
    | nil => simp [after?] at h
    | cons y cs =>
      simp only [after?] at h
      split at h
      · have := ih h
        simp only [List.length_cons, this]
        omega
      · simp at h

theorem length_dropWhile_le (p : Char → Bool) (cs : List Char) :
    (cs.dropWhile p).length ≤ cs.length := (List.dropWhile_sublist p).length_le

theorem length_of_defaultPart {cs r : List Char} {d : Option (List Char)}
    (h : defaultPart cs = some (d, r)) : r.length ≤ cs.length := by
  unfold defaultPart at h
  split at h
  · rename_i cs
    cases h₁ : after? defaultOpening (Blank.skip cs) with
    | none => simp [h₁] at h
    | some a =>
      cases h₂ : after? defaultClosing (a.dropWhile (· != '"')) with
      | none => simp [h₁, h₂] at h
      | some b =>
        simp [h₁, h₂] at h
        have l₁ := length_of_after? h₁
        have l₂ := length_of_after? h₂
        have l₃ := length_dropWhile_le (· != '"') a
        have l₄ := length_dropWhile_le Blank.member cs
        simp only [Blank.skip] at l₁
        simp only [List.length_cons, ← h.2]
        omega
  · simp only [Option.some.injEq, Prod.mk.injEq] at h
    simp [h.2]

/-- What follows a placeholder is shorter than what began with it. -/
theorem length_of_placeholder? {cs r : List Char} {p : Placeholder}
    (h : placeholder? cs = some (p, r)) : r.length < cs.length := by
  unfold placeholder? at h
  cases h₁ : after? opening cs with
  | none => simp [h₁] at h
  | some a =>
    simp only [h₁, Option.bind_eq_bind, Option.bind_some] at h
    split at h
    · simp at h
    · cases h₂ : defaultPart (Blank.skip ((Blank.skip a).dropWhile isKeyChar)) with
      | none => simp [h₂] at h
      | some d =>
        obtain ⟨d, b⟩ := d
        cases h₃ : after? closing (Blank.skip b) with
        | none => simp [h₂, h₃] at h
        | some e =>
          simp [h₂, h₃] at h
          have l₁ := length_of_after? h₁
          have l₂ := length_of_defaultPart h₂
          have l₃ := length_of_after? h₃
          have l₄ := length_dropWhile_le Blank.member a
          have l₅ := length_dropWhile_le isKeyChar (Blank.skip a)
          have l₆ := length_dropWhile_le Blank.member ((Blank.skip a).dropWhile isKeyChar)
          have l₇ := length_dropWhile_le Blank.member b
          simp only [Blank.skip] at *
          simp only [opening, List.length_cons, List.length_nil] at l₁
          rw [← h.2]
          omega

/-! ## §3. Lines. -/

/-- A piece of a line. -/
inductive Piece where
  /-- A character that stands for itself. -/
  | char (c : Char)
  | placeholder (p : Placeholder)
  deriving Repr, DecidableEq

/-- The pieces of a line: at each place a placeholder if one begins there, else a character. -/
def pieces (cs : List Char) : List Piece :=
  match cs with
  | [] => []
  | c :: rest =>
    match _found : placeholder? (c :: rest) with
    | some (p, rest') => .placeholder p :: pieces rest'
    | none => .char c :: pieces rest
termination_by cs.length
decreasing_by
  · exact length_of_placeholder? _found
  · simp

/-- Is a line a comment? -/
def isComment (line : List Char) : Bool := (Blank.skip line).head? == some '#'

/-- The pieces of a line, of which a comment has none but characters. -/
def linePieces (line : List Char) : List Piece :=
  if isComment line then line.map .char else pieces line

/-- The lines of a text: one more than it has line feeds. -/
def lines : List Char → List (List Char)
  | [] => [[]]
  | c :: rest =>
    match lines rest with
    | [] => [[c]]
    | line :: more => if c = '\n' then [] :: line :: more else (c :: line) :: more

/-- Lines joined by line feeds. -/
def unlines : List (List Char) → List Char
  | [] => []
  | [line] => line
  | line :: more => line ++ '\n' :: unlines more

/-! ## §4. Expansion. -/

/-- Why a placeholder cannot be resolved. -/
inductive Fault where
  /-- The key does not name a variable of the environment. -/
  | foreignKey (key : String)
  /-- The variable is not set, and there is no default. -/
  | unset (name : String)
  deriving Repr, DecidableEq

/-- A fault in words. -/
def Fault.message : Fault → String
  | .foreignKey key => "only variables scoped with 'env.' are supported: `" ++ key ++ "`"
  | .unset name => "environment variable not found: `" ++ name ++ "`"

/-- The name of the variable that a key stands for. -/
def variableName? (key : List Char) : Option (List Char) :=
  (after? ['e', 'n', 'v', '.'] key).filter fun name => !name.contains '.'

/-- What a placeholder is replaced by. -/
def Placeholder.resolve (env : Environment) (p : Placeholder) : Except Fault (List Char) :=
  match variableName? p.key with
  | none => .error (.foreignKey (String.ofList p.key))
  | some name =>
    match env.text? (String.ofList name), p.default with
    | some value, _ => .ok value.toList
    | none, some default => .ok default
    | none, none => .error (.unset (String.ofList name))

/-- The variable that a piece is about. -/
def Piece.variable? : Piece → Option String
  | .char _ => none
  | .placeholder p => (variableName? p.key).map String.ofList

/-- The variables that a text asks for. -/
def variableNames (text : String) : List String :=
  (lines text.toList).flatMap fun line => (linePieces line).filterMap Piece.variable?

/-- What a piece is replaced by. -/
def Piece.resolve (env : Environment) : Piece → Except Fault (List Char)
  | .char c => .ok [c]
  | .placeholder p => p.resolve env

/-- The expansion of pieces, up to the first that cannot be resolved. -/
def expandPieces (env : Environment) : List Piece → Except Fault (List Char)
  | [] => .ok []
  | piece :: rest => do
    let cs ← piece.resolve env
    return cs ++ (← expandPieces env rest)

/-- The expansion of lines, up to the first fault. -/
def expandLines (env : Environment) : List (List Char) → Except Fault (List (List Char))
  | [] => .ok []
  | line :: rest => do
    let cs ← expandPieces env (linePieces line)
    return cs :: (← expandLines env rest)

/-- **The text with every placeholder replaced**, or the first that cannot be. -/
def expand (env : Environment) (text : String) : Except Fault String := do
  return String.ofList (unlines (← expandLines env (lines text.toList)))

end ErrorContract.Template
