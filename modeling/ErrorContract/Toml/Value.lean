/-
  ErrorContract.Toml.Value
  ────────────────────────
  **THE VALUES OF A TOML DOCUMENT.**

  A table's members stand sorted by name, so that whoever looks at them one
  after the other does so in an order that the document does not decide.
-/

namespace ErrorContract.Toml

/-- A value. -/
inductive Value where
  | text (s : String)
  | int (i : Int)
  | float (x : Float)
  | bool (b : Bool)
  /-- A date, a time or both, in one spelling of the many. -/
  | datetime (text : String)
  | array (items : List Value)
  /-- Members sorted by name, no two of one name. -/
  | table (members : List (String × Value))
  deriving Repr, Inhabited

/-- The name of a value's type. -/
def Value.typeName : Value → String
  | .text _ => "string"
  | .int _ => "integer"
  | .float _ => "float"
  | .bool _ => "boolean"
  | .datetime _ => "datetime"
  | .array _ => "array"
  | .table _ => "table"

/-- Put a member in its place among members sorted by name. -/
def insertSorted (name : String) (v : α) : List (String × α) → List (String × α)
  | [] => [(name, v)]
  | (n, w) :: rest =>
    if name < n then (name, v) :: (n, w) :: rest else (n, w) :: insertSorted name v rest

/-- Members sorted by name. -/
def sortByName (members : List (String × α)) : List (String × α) :=
  members.foldl (fun sorted (name, v) => insertSorted name v sorted) []

end ErrorContract.Toml
