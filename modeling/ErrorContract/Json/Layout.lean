/-
  ErrorContract.Json.Layout
  ─────────────────────────
  **WHAT A BODY MUST LOOK LIKE.**

  A layout says what one value must look like; the values inside it are
  given by the names of their layouts, so a layout may contain itself.  A
  `Schema` gives every name its layout.

      record   named fields; also accepted as the list of their values
      choice   one of several variants, as its bare name or as an object with
               that name as its only member
      tagged   one of several variants, whose name is a member among others
      table    an object with free names
-/
import ErrorContract.Json.Value
import ErrorContract.Mismatch

namespace ErrorContract.Json

open ErrorContract

/-- What a record does without one of its fields. -/
inductive Presence where
  /-- The field must be there. -/
  | required
  /-- The field may be null, and missing where fields are named. -/
  | nullable
  /-- The field may be null or missing. -/
  | optional
  /-- The field may be missing and then has this value. -/
  | defaulted (value : Value)

/-- A field of a record, with the name `type` of its layout. -/
structure Field (τ : Type) where
  name : String
  type : τ
  presence : Presence

/-- What stands behind the name of a variant. -/
inductive Payload (τ : Type) where
  /-- Nothing. -/
  | bare
  /-- One value. -/
  | single (type : τ)
  /-- Several values, as a list. -/
  | several (title : String) (types : List τ)
  /-- Named fields. -/
  | fields (title : String) (fields : List (Field τ))

/-- A variant of a choice. -/
structure Variant (τ : Type) where
  name : String
  payload : Payload τ

/-- What a value must look like that was kept aside, as it stood, before it was known what it
must look like. -/
inductive Kept where
  | text
  | integer (kind : IntegerKind)
  /-- A record, all of whose fields must be there. -/
  | record (title : String) (fields : List (String × Kept))

/-- How the names of a table are read. -/
inductive Key where
  /-- As they are. -/
  | text
  /-- As numbers of this kind. -/
  | number (kind : IntegerKind)

/-- **What one value must look like.** A title is how messages call the whole. -/
inductive Layout (τ : Type) where
  /-- Any value; the members of its objects are sorted by name, the last of one name staying. -/
  | any
  /-- Any value, kept as it stands. -/
  | raw
  | text
  | truth
  /-- Nothing but `null`. -/
  | unit
  | integer (kind : IntegerKind)
  | list (element : τ)
  /-- A list of so many values; `whole` is the title with their number. -/
  | tuple (title whole : String) (elements : List τ)
  /-- A record; a `closed` one refuses names that it does not have. -/
  | record (title : String) (fields : List (Field τ)) (closed : Bool)
  | table (key : Key) (element : τ)
  | choice (variants : List (Variant τ))
  /-- A choice whose variant is named by the member `tag`; the other members are kept aside. -/
  | tagged (title : String) (tag : String) (variants : List (String × Kept))

/-- The layouts by their names. -/
abbrev Schema (τ : Type) := τ → Layout τ

/-- The names of the fields of a record. -/
def fieldNames (fields : List (Field τ)) : List String := fields.map Field.name

/-- A tuple of two values. -/
def Layout.pair (first second : τ) : Layout τ :=
  .tuple "a tuple of size 2" "a tuple of size 2" [first, second]

/-- A title with a number of elements. -/
def titleWith (title : String) (n : Nat) : String := title ++ " with " ++ elements n

/-- What stands behind the name of a variant, as a layout. -/
def Payload.layout (schema : Schema τ) : Payload τ → Layout τ
  | .bare => .unit
  | .single type => schema type
  | .several title types => .tuple title (titleWith title types.length) types
  | .fields title named => .record title named false

end ErrorContract.Json
