/-
  ErrorContract.Failure.Classify
  ──────────────────────────────
  **FINDING THE FAILURE IN A RAISED ERROR.**

  The rules run from the most specific to the most general, and each looks
  through the whole error before the next one runs.  So a vendor's error
  buried under context wins over a general failure on top.  What no rule
  knows becomes the fallback failure with the outermost text.
-/
import ErrorContract.Failure.Raised

namespace ErrorContract

/-! ## §1. What a layer is. -/

namespace Layer

/-- The unreadable body that a layer is. -/
def body? : Layer → Option UnreadableBody
  | .body unreadable => some unreadable
  | _ => none

/-- The error of a statement that a layer is. -/
def statement? : Layer → Option StatementError
  | .statement error => some error
  | _ => none

/-- The error of the database client that a layer is. -/
def client? : Layer → Option ClientError
  | .client error => some error
  | _ => none

/-- The error of the SQL layer that a layer is. -/
def sql? : Layer → Option SqlError
  | .sql error => some error
  | _ => none

/-- The failure that a layer is. -/
def failure? : Layer → Option Failure
  | .failure raised => some raised
  | _ => none

/-- The text of a layer that is an error of a common kind. -/
def text? (kind : CommonKind) : Layer → Option String
  | .common k message => if k = kind then some message else none
  | _ => none

end Layer

namespace Failure

/-! ## §2. The rules. -/

/-- An unreadable body, raised as itself or as a failure. -/
def unreadableBodyRule (e : Raised) : Option Failure :=
  match e.outermost Layer.body? with
  | some body => some (.unreadableBody body)
  | none =>
    match e.outermost Layer.failure? with
    | some (.unreadableBody body) => some (.unreadableBody body)
    | _ => none

/-- An error of a statement, or else of the database client. -/
def databaseRule (e : Raised) : Option Failure :=
  match e.outermost Layer.statement? with
  | some error => some (.statement error)
  | none => (e.outermost Layer.client?).map .client

/-- An error of the SQL layer. -/
def sqlRule (e : Raised) : Option Failure := (e.outermost Layer.sql?).map .sql

/-- A failure that the application raised. -/
def applicationRule (e : Raised) : Option Failure := e.outermost Layer.failure?

/-- The text of the outermost error of the first of these kinds that there is. -/
def firstText (kinds : List CommonKind) (e : Raised) : Option String :=
  kinds.findSome? fun kind => e.outermost (Layer.text? kind)

/-- What reads like a bad request, the likeliest kind first. -/
def badRequestKinds : List CommonKind :=
  [.wholeNumber, .floatingNumber, .truthValue, .narrowing, .inputOutput]

/-- Bytes that are no text. -/
def encodingKinds : List CommonKind := [.textConversion, .textCheck]

/-- Errors that a bad argument causes. -/
def badRequestRule (e : Raised) : Option Failure := (firstText badRequestKinds e).map .badRequest

/-- Bytes that are no text, or else JSON that the application itself could not read. -/
def internalRule (e : Raised) : Option Failure :=
  match firstText encodingKinds e with
  | some message => some (.internal .encoding message)
  | none => (firstText [.json] e).map (.internal .parse)

/-- The rules, most specific first. -/
def rules : List (Raised → Option Failure) :=
  [unreadableBodyRule, databaseRule, sqlRule, applicationRule, badRequestRule, internalRule]

/-- **The failure that a raised error stands for.** -/
def classify (e : Raised) : Failure :=
  (rules.findSome? fun rule => rule e).getD (ofText e.message)

end Failure

end ErrorContract
