/-
  ErrorContract.Text.Front
  ────────────────────────
  **READING A TEXT FROM ITS FRONT.**

  A reader takes something off the front of a text and leaves the rest, or
  fails.  Readers are put together with `do`; the rest of the text is their
  state.
-/

namespace ErrorContract

/-- A reader of the front of a text. -/
abbrev Front := StateT (List Char) Option

namespace Front

/-- Fail. -/
def refuse : Front α := fun _ => none

/-- The character that comes next. -/
def peek : Front (Option Char) := fun cs => some (cs.head?, cs)

/-- Drop one character. -/
def drop : Front Unit := fun cs => some ((), cs.drop 1)

/-- Read exactly these characters. -/
def given (front : List Char) : Front Unit := fun cs =>
  (front.isPrefixOf? cs).map fun rest => ((), rest)

/-- Read exactly these characters, if they come next; say whether they did. -/
def accept (front : List Char) : Front Bool := fun cs =>
  match front.isPrefixOf? cs with
  | some rest => some (true, rest)
  | none => some (false, cs)

/-- Read all characters up to the first without a property. -/
def run (p : Char → Bool) : Front (List Char) := fun cs => some (cs.span p)

/-- Read one thing or, where that fails, another. -/
def orElse (first second : Front α) : Front α := fun cs => (first cs).or (second cs)

/-- Read something, or nothing where that fails. -/
def optional (read : Front α) : Front (Option α) := fun cs =>
  match read cs with
  | some (a, rest) => some (some a, rest)
  | none => some (none, cs)

/-- **Read a whole text.** -/
def whole (read : Front α) (s : String) : Option α :=
  match read s.toList with
  | some (a, []) => some a
  | _ => none

end Front

end ErrorContract
