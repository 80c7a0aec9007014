/-
  ErrorContract.Failure.Path
  ──────────────────────────
  **WHERE IN A BODY A VALUE FAILED TO MAP.**

  A path leads from the whole body to the offending value: by name into an
  object, by position into a list.  Callers read it as

      Mapping JSON data error at  field 'rows' object 2 field 'id'

  with positions counted from one.
-/
import ErrorContract.Text.Decimal

namespace ErrorContract

/-- One step of the path to a value. -/
inductive PathSegment where
  /-- The member of an object with this name. -/
  | field (name : String)
  /-- The element of a list at this position, counted from zero. -/
  | index (position : Nat)
  deriving Repr, DecidableEq

/-- A path, outermost step first. -/
abbrev Path := List PathSegment

/-- What every rendered path begins with. -/
def Path.heading : String := "Mapping JSON data error at "

/-- One step as callers read it: names are quoted, positions count from one. -/
def PathSegment.describe : PathSegment → String
  | .field name => " field '" ++ name ++ "'"
  | .index position => " object " ++ Decimal.text (position + 1)

/-- **A path as callers read it.** -/
def Path.describe (path : Path) : String :=
  Path.heading ++ String.join (path.map PathSegment.describe)

end ErrorContract
