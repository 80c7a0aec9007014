/-
  ErrorContract.Sample.Bodies
  ───────────────────────────
  **THE BODIES OF A SAMPLE SERVICE.**

  A service that stores rows in tables, and a few bodies besides that use
  every kind of layout: records that nest in themselves, choices, a closed
  record, a tagged choice, tables by name and by number.
-/
import ErrorContract.Json.Body

namespace ErrorContract.Sample

open ErrorContract.Json

/-- The types of bodies and of what they hold. -/
inductive BodyType where
  | insert | row | rows | cells | cell | cellList | tree | trees | shape | shapes | strict
  | numberedText | tagged | scores | byId | numbers | text | truth | value
  | integer (kind : IntegerKind)
  deriving Repr, DecidableEq

/-- A signed number. -/
def BodyType.signed (bits : Nat) : BodyType := .integer (.signed bits)

/-- An unsigned number. -/
def BodyType.unsigned (bits : Nat) : BodyType := .integer (.unsigned bits)

/-- A field that must be there. -/
def field (name : String) (type : BodyType) : Json.Field BodyType := ⟨name, type, .required⟩

/-- The variants of a shape. -/
def shapeVariants : List (Variant BodyType) := [
  ⟨"Point", .bare⟩,
  ⟨"Circle", .single (.unsigned 8)⟩,
  ⟨"Pair", .several "tuple variant Shape::Pair" [.signed 8, .signed 16]⟩,
  ⟨"Named", .fields "struct variant Shape::Named" [field "cell" .cell, field "tag" .text]⟩]

/-- A row that is kept aside. -/
def keptRow : Kept := .record "struct Row" [("id", .integer (.unsigned 32))]

/-- The variants of a tagged command. -/
def taggedVariants : List (String × Kept) := [
  ("put", .record "struct variant Tagged::Put" [("row", keptRow)]),
  ("drop", .record "struct variant Tagged::Drop" [("table", .text)])]

/-- **The layout of every type.** -/
def schema : Schema BodyType
  | .insert => .record "struct Insert" [field "table" .text, field "rows" .rows] false
  | .row => .record "struct Row" [field "id" (.unsigned 32)] false
  | .rows => .list .row
  | .cells => .record "struct Cells" [field "name" .cellList] false
  | .cell => .record "struct Cell" [field "value" (.signed 64)] false
  | .cellList => .list .cell
  | .tree => .record "struct Tree"
      [field "value" (.signed 64), ⟨"children", .trees, .defaulted (.list [])⟩] false
  | .trees => .list .tree
  | .shape => .choice shapeVariants
  | .shapes => .list .shape
  | .strict => .record "struct Strict"
      [field "flag" .truth, ⟨"note", .text, .optional⟩, ⟨"maxRows", .unsigned 16, .nullable⟩,
        field "pair" .numberedText] true
  | .numberedText => .pair (.signed 8) .text
  | .tagged => .tagged "internally tagged enum Tagged" "type" taggedVariants
  | .scores => .table .text (.signed 64)
  | .byId => .table (.number (.unsigned 32)) .cell
  | .numbers => .list (.signed 32)
  | .text => .text
  | .truth => .truth
  | .value => .any
  | .integer kind => .integer kind

end ErrorContract.Sample
