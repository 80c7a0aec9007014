/-
  ErrorContract.Text.Words
  ────────────────────────
  **TRUTH VALUES AND SINGLE CHARACTERS, WRITTEN OUT.**
-/

namespace ErrorContract

/-! ## §1. Truth values. -/

/-- A truth value is the word `true` or the word `false`, in small letters. -/
def Truth.parse : String → Option Bool
  | "true" => some true
  | "false" => some false
  | _ => none

/-- What is said of a text that is no truth value. -/
def Truth.faultMessage : String := "provided string was not `true` or `false`"

/-! ## §2. Single characters. -/

/-- Why a text is no single character. -/
inductive SingleChar.Fault where
  | empty
  | tooMany
  deriving Repr, DecidableEq

/-- A fault in words. -/
def SingleChar.Fault.message : SingleChar.Fault → String
  | .empty => "cannot parse char from empty string"
  | .tooMany => "too many characters in string"

/-- The only character of a text. -/
def SingleChar.parse (s : String) : Except SingleChar.Fault Char :=
  match s.toList with
  | [] => .error .empty
  | [c] => .ok c
  | _ => .error .tooMany

end ErrorContract
