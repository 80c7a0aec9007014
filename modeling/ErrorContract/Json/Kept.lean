/-
  ErrorContract.Json.Kept
  ───────────────────────
  **FITTING A VALUE THAT WAS KEPT ASIDE.**

  The members of a tagged choice are kept aside until its tag is known.
  What does not fit then has no place in the body any more: a mismatch is
  all that is left to say.
-/
import ErrorContract.Json.Layout

namespace ErrorContract.Json

open ErrorContract

/-- A value, as a message names it. -/
def Value.found : Value → Found
  | .null => .null
  | .bool b => .bool b
  | .int i => .int i
  | .float x => .float x
  | .text s => .text s
  | .list _ => .sequence
  | .object _ => .map

/-- The fields of a record in their order, from the members that were read. -/
def inOrder (read : List (String × Value)) :
    List String → Except Mismatch (List (String × Value))
  | [] => .ok []
  | name :: names =>
    match read.lookup name with
    | none => .error (.missingField name)
    | some v => (inOrder read names).map ((name, v) :: ·)

mutual

/-- **Fit a kept value to its layout.** -/
def fit : Value → Kept → Except Mismatch Value
  | .text s, .text => .ok (.text s)
  | v, .text => .error (.wrongKind v.found "a string")
  | .int i, .integer kind => (kind.check i).map .int
  | v, .integer kind => .error (.wrongKind v.found kind.name)
  | .list items, .record title fields =>
    (fitItems (titleWith title fields.length) 0 items fields).map .object
  | .object members, .record _ fields => do
    let read ← fitMembers fields [] members
    (inOrder read (fields.map (·.1))).map .object
  | v, .record title _ => .error (.wrongKind v.found title)

/-- Fit a list to the fields in their order; nothing may be left over. -/
def fitItems (title : String) (position : Nat) :
    List Value → List (String × Kept) → Except Mismatch (List (String × Value))
  | [], [] => .ok []
  | v :: rest, [] =>
    .error (.wrongLength (position + (v :: rest).length) (elements position ++ " in sequence"))
  | [], _ :: _ => .error (.wrongLength position title)
  | v :: rest, (name, kept) :: fields => do
    let w ← fit v kept
    return (name, w) :: (← fitItems title (position + 1) rest fields)

/-- Fit the members that are fields, one after the other; `read` holds those read so far. -/
def fitMembers (fields : List (String × Kept)) (read : List (String × Value)) :
    List (String × Value) → Except Mismatch (List (String × Value))
  | [] => .ok read
  | (name, v) :: rest =>
    match fields.lookup name with
    | none => fitMembers fields read rest
    | some kept =>
      if (read.lookup name).isSome then .error (.duplicateField name)
      else do
        let w ← fit v kept
        fitMembers fields ((name, w) :: read) rest

end

end ErrorContract.Json
