/-
  ErrorContract.Config.Environment
  ────────────────────────────────
  **ENVIRONMENT VARIABLES.**

  A variable has bytes as its value.  One whose bytes are no text counts as
  unset wherever a text is asked for.
-/
import ErrorContract.Text.Utf8

namespace ErrorContract

/-- The variables that are set. -/
structure Environment where
  entries : List (String × List UInt8)
  deriving Repr

namespace Environment

/-- The bytes of a variable. -/
def bytes? (env : Environment) (name : String) : Option (List UInt8) := env.entries.lookup name

/-- **The text of a variable**, if it is set and its bytes are text. -/
def text? (env : Environment) (name : String) : Option String :=
  match env.bytes? name with
  | none => none
  | some bytes => (Utf8.decodeText bytes).toOption

end Environment

end ErrorContract
