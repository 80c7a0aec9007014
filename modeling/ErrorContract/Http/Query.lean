/-
  ErrorContract.Http.Query
  ────────────────────────
  **WHAT A HANDLER READS FROM A QUERY.**

  A query is a list of names and values, in the form of submitted forms: a
  plus sign is a space, and bytes that are no text become replacement
  characters.  Fields are read in the order of the query; names that no
  field has are passed over.
-/
import ErrorContract.Mismatch
import ErrorContract.Text.Percent
import ErrorContract.Text.Pieces

namespace ErrorContract.Http.Query

open ErrorContract

/-! ## §1. Names and values. -/

/-- The text that a piece of a form stands for. -/
def decodePiece (cs : List Char) : String :=
  Utf8.decodeLossy
    (Percent.decodeText (String.ofList (cs.map fun c => if c = '+' then ' ' else c)))

/-- A name and its value. -/
def decodePair (piece : List Char) : String × String :=
  let (name, value) := piece.span (· != '=')
  (decodePiece name, decodePiece (value.drop 1))

/-- **The names and values of a query**, in its order. -/
def pairs (query : String) : List (String × String) :=
  ((Pieces.cut (· == '&') query.toList).filter (!·.isEmpty)).map decodePair

/-! ## §2. Fields. -/

/-- A field: its name, and what its value makes of what was read so far. -/
structure Field (σ : Type) where
  name : String
  read : String → Except String (σ → σ)

/-- Why a query cannot be used. -/
inductive Fault where
  /-- A value does not fit its field. -/
  | value (name message : String)
  /-- A field is given twice, or not at all. -/
  | shape (mismatch : Mismatch)
  deriving Repr

/-- A fault in words. -/
def Fault.message : Fault → String
  | .value name message => "Failed to deserialize query string: " ++ name ++ ": " ++ message
  | .shape mismatch =>
    "Failed to deserialize query string: " ++ mismatch.message Number.pointedStyle

/-- **Read fields** into what was read so far; `seen` holds the names of the fields read. -/
def readFields (fields : List (Field σ)) (seen : List String) (sofar : σ) :
    List (String × String) → Except Fault σ
  | [] => .ok sofar
  | (name, value) :: rest =>
    match fields.find? fun f => f.name == name with
    | none => readFields fields seen sofar rest
    | some field =>
      if seen.contains name then .error (.shape (.duplicateField name))
      else
        match field.read value with
        | .ok update => readFields fields (name :: seen) (update sofar) rest
        | .error message => .error (.value name message)

/-- The value of a field that must be there. -/
def required (name : String) : Option α → Except Fault α
  | some a => .ok a
  | none => .error (.shape (.missingField name))

/-- Read the fields of the query of a request. -/
def read (fields : List (Field σ)) (start : σ) (query : Option String) : Except Fault σ :=
  readFields fields [] start (pairs (query.getD ""))

end ErrorContract.Http.Query
