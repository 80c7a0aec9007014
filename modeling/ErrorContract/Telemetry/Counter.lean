/-
  ErrorContract.Telemetry.Counter
  ───────────────────────────────
  **THE COUNTER OF FAILURES.**

  Every failure that is answered adds one to the counter, at the attributes
  of its status and its category.  What is exported is a sum for each set of
  attributes, whatever the order of the increments was.
-/
import ErrorContract.Json.Writer
import ErrorContract.Vendor

namespace ErrorContract.Telemetry

open ErrorContract

/-! ## §1. Increments. -/

/-- One failure, as it is counted. -/
structure Increment where
  status : Status
  category : String
  deriving Repr, DecidableEq

/-- The name of the counter. -/
def counterName : String := "http.server.error.count"

/-- What the counter counts. -/
def counterDescription : String := "Failures translated into error responses"

/-- The attribute that carries the category. -/
def categoryAttribute : String := "error.category"

/-- The attribute that carries the status. -/
def statusAttribute : String := "http.response.status_code"

/-- The attributes of an increment, sorted by name. -/
def Increment.attributes (i : Increment) : Json.Value :=
  .object [(categoryAttribute, .text i.category), (statusAttribute, .int i.status)]

/-! ## §2. Sums. -/

/-- How often each increment occurs. -/
abbrev Sums := List (Increment × Nat)

/-- Add one increment to sums. -/
def Sums.add (i : Increment) : Sums → Sums
  | [] => [(i, 1)]
  | (j, n) :: rest => if i = j then (j, n + 1) :: rest else (j, n) :: Sums.add i rest

/-- The sum of one increment. -/
def Sums.count (i : Increment) (sums : Sums) : Nat := (sums.lookup i).getD 0

/-- Does one sum stand before another? The texts of their attributes decide. -/
def standsBefore (a b : Increment × Nat) : Bool :=
  a.1.attributes.render ≤ b.1.attributes.render

/-- **The sums of increments**, sorted by their attributes. -/
def sums (increments : List Increment) : Sums :=
  (increments.foldl (fun sums i => Sums.add i sums) []).mergeSort standsBefore

end ErrorContract.Telemetry
