/-
  ErrorContract.Toml.Table
  ────────────────────────
  **PUTTING TABLES TOGETHER.**

  A table comes into being in one of three ways: a header defines it, the
  header of a table inside it implies it, or a dotted key does.  How it came
  into being decides what may still be added:

      a defined table     by the settings under its header
      an implied one      also by a header of its own
      a dotted one        by more dotted keys that begin alike

  Nothing is defined twice, and arrays and inline tables are closed.
-/
import ErrorContract.Toml.Value

namespace ErrorContract.Toml

/-! ## §1. Tables in the making. -/

/-- How a table came into being. -/
inductive Origin where
  | defined | implied | dotted
  deriving Repr, DecidableEq

mutual

/-- The members of a table in the making, in the order of the document. -/
inductive Members where
  | empty
  | more (name : String) (item : Item) (rest : Members)

/-- What a name in a table in the making stands for. -/
inductive Item where
  | leaf (v : Value)
  | table (origin : Origin) (members : Members)
  /-- An array of tables: the last of them, and those before it, last first. -/
  | tables (last : Members) (before : List Members)

end

namespace Members

/-- The item with a name. -/
def find? (name : String) : Members → Option Item
  | .empty => none
  | .more n item rest => if n == name then some item else rest.find? name

/-- The members with an item in place of the one of its name, or added at the end. -/
def put (name : String) (item : Item) : Members → Members
  | .empty => .more name item .empty
  | .more n i rest => if n == name then .more n item rest else .more n i (rest.put name item)

/-! ## §2. Settings. -/

/-- Define the value of a dotted key; `free` tells whether the last part of a key may be set in
this very table. -/
def defineIn (free : Bool) : List String → Value → Members → Option Members
  | [], _, _ => none
  | [name], v, members =>
    if free && (members.find? name).isNone then some (members.put name (.leaf v)) else none
  | name :: path, v, members =>
    match members.find? name with
    | none => (defineIn true path v .empty).map fun m => members.put name (.table .dotted m)
    | some (.table .dotted m) =>
      (defineIn true path v m).map fun m => members.put name (.table .dotted m)
    | some (.table .implied m) =>
      (defineIn false path v m).map fun m => members.put name (.table .implied m)
    | _ => none

/-- **Define the value of a key** in a table whose settings are being read. -/
def define (path : List String) (v : Value) (members : Members) : Option Members :=
  defineIn true path v members

/-! ## §3. Headers. -/

/-- Change the table that a path leads to; tables on the way that do not exist are implied, and
an array of tables leads into its last one. -/
def alter (change : Members → Option Members) : List String → Members → Option Members
  | [], members => change members
  | name :: path, members =>
    match members.find? name with
    | none => (Members.alter change path .empty).map fun m => members.put name (.table .implied m)
    | some (.table origin m) =>
      (Members.alter change path m).map fun m => members.put name (.table origin m)
    | some (.tables last before) =>
      (Members.alter change path last).map fun m => members.put name (.tables m before)
    | some (.leaf _) => none

/-- Define a table by its header. -/
def addTable (name : String) (members : Members) : Option Members :=
  match members.find? name with
  | none => some (members.put name (.table .defined .empty))
  | some (.table .implied m) => some (members.put name (.table .defined m))
  | _ => none

/-- Add one more element to an array of tables by its header. -/
def addElement (name : String) (members : Members) : Option Members :=
  match members.find? name with
  | none => some (members.put name (.tables .empty []))
  | some (.tables last before) => some (members.put name (.tables .empty (last :: before)))
  | _ => none

end Members

/-! ## §4. Documents. -/

/-- A statement of a document. -/
inductive Statement where
  | setting (path : List String) (v : Value)
  /-- The header of a table. -/
  | table (path : List String)
  /-- The header of one more element of an array of tables. -/
  | element (path : List String)

/-- Carry out a header at the last part of its path. -/
def Members.header (add : String → Members → Option Members) (path : List String)
    (root : Members) : Option Members :=
  match path.getLast? with
  | none => none
  | some name => root.alter (add name) path.dropLast

/-- **The table that statements make**; `path` leads to the table under whose header they stand. -/
def assemble (root : Members) (path : List String) : List Statement → Option Members
  | [] => some root
  | .setting key v :: rest =>
    (root.alter (Members.define key v) path).bind fun root => assemble root path rest
  | .table path :: rest =>
    (root.header Members.addTable path).bind fun root => assemble root path rest
  | .element path :: rest =>
    (root.header Members.addElement path).bind fun root => assemble root path rest

/-! ## §5. Finished values. -/

mutual

/-- The values of the members, sorted by name. -/
def Members.values : Members → List (String × Value)
  | .empty => []
  | .more name item rest => insertSorted name item.value rest.values

/-- The value of an item. -/
def Item.value : Item → Value
  | .leaf v => v
  | .table _ members => .table members.values
  | .tables last before => .array ((.table last.values :: tableValues before).reverse)

/-- The values of tables. -/
def tableValues : List Members → List Value
  | [] => []
  | members :: rest => .table members.values :: tableValues rest

end

end ErrorContract.Toml
