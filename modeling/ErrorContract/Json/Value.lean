/-
  ErrorContract.Json.Value
  ────────────────────────
  **JSON VALUES.**

  One value type serves what is read and what is written.  Whole numbers and
  floating point numbers are kept apart, as the reader tells them apart; the
  members of an object keep the order in which they are to be written.
-/

namespace ErrorContract.Json

/-- A JSON value. -/
inductive Value where
  | null
  | bool (b : Bool)
  /-- A number without fraction and exponent. -/
  | int (i : Int)
  /-- A number with a fraction or an exponent, or too large for a word. -/
  | float (x : Float)
  | text (s : String)
  | list (items : List Value)
  /-- Members in the order in which they were read or are written. -/
  | object (members : List (String × Value))
  deriving Repr, Inhabited

/-! ## §1. Sorted members. -/

/-- Put a member in its place among members sorted by name; an equal name is overwritten. -/
def insertMember (name : String) (v : Value) : List (String × Value) → List (String × Value)
  | [] => [(name, v)]
  | (n, w) :: rest =>
    if name < n then (name, v) :: (n, w) :: rest
    else if name == n then (name, v) :: rest
    else (n, w) :: insertMember name v rest

/-- **Members sorted by name**; of several with one name the last stays. -/
def sortMembers (members : List (String × Value)) : List (String × Value) :=
  members.foldl (fun sorted (name, v) => insertMember name v sorted) []

end ErrorContract.Json
