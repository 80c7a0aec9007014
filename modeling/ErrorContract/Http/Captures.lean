/-
  ErrorContract.Http.Captures
  ───────────────────────────
  **WHAT A HANDLER READS FROM A PATH.**

  Captured texts are percent-decoded, all of them before any is used, and
  must be text then.  A capture may be wanted as a number of some kind.
-/
import ErrorContract.Http.Router
import ErrorContract.Text.Numeral
import ErrorContract.Text.Percent

namespace ErrorContract.Http

open ErrorContract

/-- Why captures cannot be used. -/
inductive CaptureFault where
  /-- A capture does not decode to text. -/
  | notText (name : String)
  /-- The only capture is no number of the kind. -/
  | notNumber (text : String) (kind : IntegerKind)
  /-- One of several captures is no number of the kind. -/
  | notNumberAt (index : Nat) (text : String) (kind : IntegerKind)
  deriving Repr, DecidableEq

/-- A fault in words. -/
def CaptureFault.message : CaptureFault → String
  | .notText name => "Invalid URL: Invalid UTF-8 in `" ++ name ++ "`"
  | .notNumber text kind => "Invalid URL: Cannot parse `" ++ text ++ "` to a `" ++ kind.name ++ "`"
  | .notNumberAt index text kind =>
    "Invalid URL: Cannot parse value at index " ++ Decimal.text index ++ " with value `" ++ text ++
      "` to a `" ++ kind.name ++ "`"

namespace Captures

/-- The texts of captures, in the order of the path. -/
def texts : Captures → Except CaptureFault (List String)
  | [] => .ok []
  | (name, written) :: rest =>
    match Utf8.decodeText (Percent.decodeText (String.ofList written)) with
    | .ok text => (texts rest).map (text :: ·)
    | .error _ => .error (.notText name)

/-- The only text; nothing if there is none. -/
def text (captures : Captures) : Except CaptureFault String := do
  return (← captures.texts).headD ""

/-- **The only capture as a number.** -/
def number (kind : IntegerKind) (captures : Captures) : Except CaptureFault Int := do
  let text ← captures.text
  (Numeral.parse kind text).mapError fun _ => .notNumber text kind

/-- Texts as numbers, the first of which is at `index`. -/
def numbersFrom (index : Nat) : List IntegerKind → List String → Except CaptureFault (List Int)
  | kind :: kinds, text :: texts =>
    match Numeral.parse kind text with
    | .ok i => (numbersFrom (index + 1) kinds texts).map (i :: ·)
    | .error _ => .error (.notNumberAt index text kind)
  | _, _ => .ok []

/-- **Several captures as numbers**, each of its own kind. -/
def numbers (kinds : List IntegerKind) (captures : Captures) : Except CaptureFault (List Int) := do
  numbersFrom 0 kinds (← captures.texts)

end Captures

end ErrorContract.Http
