/-
  ErrorContract.Failure.Raised
  ────────────────────────────
  **ERRORS AS APPLICATION CODE RAISES THEM.**

  A handler may raise any error: wrapped into others, with context attached
  on the way up.  It can be looked into in two ways.  The values that were
  raised are seen as they are: the context, and the error it was attached to.
  The chain of causes leads on from there, but shows context as mere text.
  `outermost` tries the one and then the other.

  An input or output error shows the text of the error inside it, but not
  that error: its causes are those of the error inside.
-/
import ErrorContract.Failure.Basic

namespace ErrorContract

/-! ## §1. Layers. -/

/-- Errors of general use that the classifier knows. -/
inductive CommonKind where
  /-- A text is no whole number. -/
  | wholeNumber
  /-- A text is no floating point number. -/
  | floatingNumber
  /-- A text is no truth value. -/
  | truthValue
  /-- A number does not fit a narrower kind. -/
  | narrowing
  /-- Input or output failed. -/
  | inputOutput
  /-- Bytes could not be turned into a text. -/
  | textConversion
  /-- Bytes were looked at and are no text. -/
  | textCheck
  /-- JSON could not be read. -/
  | json
  deriving Repr, DecidableEq

/-- One layer of an error. -/
inductive Layer where
  | body (body : UnreadableBody)
  | statement (error : StatementError)
  | client (error : ClientError)
  | sql (error : SqlError)
  | failure (failure : Failure)
  /-- An error of general use. -/
  | common (kind : CommonKind) (message : String)
  /-- Plain text, or an error of a kind that nobody knows. -/
  | other (message : String)
  deriving Repr, DecidableEq

/-- The text of a layer. -/
def Layer.message : Layer → String
  | .body unreadable => unreadable.message
  | .statement error => error.message
  | .client error => error.message
  | .sql error => error.message
  | .failure raised => raised.detail
  | .common _ message => message
  | .other message => message

/-! ## §2. Raised errors. -/

/-- An error as it is raised. -/
inductive Raised where
  /-- An error without a cause. -/
  | bare (layer : Layer)
  /-- An error of a kind that nobody knows, caused by another. -/
  | caused (message : String) (source : Raised)
  /-- An input or output error with another error inside it. -/
  | concealed (inside : Raised)
  /-- An error with context, innermost first. -/
  | within (root : Raised) (context : List Raised)
  deriving Repr

namespace Raised

/-- The text of an error: that of its outermost layer. -/
def message : Raised → String
  | .bare layer => layer.message
  | .caused message _ => message
  | .concealed inside => inside.message
  | .within root context => go root.message context
where
  /-- The text of the last context, if there is any. -/
  go (text : String) : List Raised → String
    | [] => text
    | c :: rest => go c.message rest

/-- The layer that an error is when only the error itself is looked at. -/
def asLayer : Raised → Layer
  | .bare layer => layer
  | .caused message _ => .other message
  | .concealed inside => .common .inputOutput inside.message
  | .within root context => .other (Raised.within root context).message

/-! ## §3. The two ways of looking into an error. -/

/-- The values that were raised: the context, outermost first, and then the error that it was
attached to. What caused them is not among them. -/
def attached : Raised → List Layer
  | .within root context => (context.map asLayer).reverse ++ root.attached
  | e => [e.asLayer]

/-- The error and, one after the other, what caused it. Context is passed on the way down, but
only as the text that it shows. -/
def causes : Raised → List Layer
  | .bare layer => [layer]
  | .caused message source => .other message :: source.causes
  | .concealed inside => .common .inputOutput inside.message :: inside.causes.tail
  | .within root context => (context.map fun c => Layer.other c.message).reverse ++ root.causes

/-- **The outermost layer that `pick` accepts**: a value that was raised, or else a cause. -/
def outermost (pick : Layer → Option α) (e : Raised) : Option α :=
  (e.attached.findSome? pick).or (e.causes.findSome? pick)

end Raised

end ErrorContract
