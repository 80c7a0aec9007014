/-
  ErrorContract.Vendor
  ────────────────────
  **ERRORS OF THE DATABASE CLIENT, AND THE STATUS EACH CODE EARNS.**

  The database client library reports failures with a signed 32-bit code.
  Two curated tables say what a code means to the caller of the web API:

      client     unauthorized ↦ 401,  bad request ↦ 400,  any other ↦ 500
      statement  unauthorized ↦ 401,                      any other ↦ 400

  A code of the SQL layer is passed through and never looked at.
-/

namespace ErrorContract

/-- An HTTP status code. -/
abbrev Status := Nat

/-- A vendor's error code. -/
abbrev VendorCode := Int32

/-- General failure raised by the database client. -/
structure ClientError where
  /-- The vendor's code. -/
  code : VendorCode
  /-- The vendor's message. -/
  message : String
  deriving Repr, DecidableEq

/-- Failure raised by the database client while it executes a statement. -/
structure StatementError where
  /-- The vendor's code. -/
  code : VendorCode
  /-- The vendor's message. -/
  message : String
  deriving Repr, DecidableEq

/-- Failure reported by the SQL layer. -/
structure SqlError where
  /-- The vendor's code, passed through verbatim. -/
  vendorCode : VendorCode
  /-- The vendor's message. -/
  message : String
  deriving Repr, DecidableEq

/-! ## §1. The curated code tables. -/

/-- Client codes that mean the caller is not authenticated. -/
def clientUnauthorized : List VendorCode := [10005, 10053]

/-- Client codes that the caller's own input causes. -/
def clientBadRequest : List VendorCode :=
  [0, 1007, 1008, 60081, 145001, 145007, 145024, 150010, 150012, 150020, 151001, 151002]

/-- Statement codes that mean the caller is not authenticated. -/
def statementUnauthorized : List VendorCode := [10005, 10053, 10100, 10102]

/-! ## §2. Statuses. -/

/-- The status of a client code: codes outside both tables are server errors. -/
def ClientError.status (e : ClientError) : Status :=
  if e.code ∈ clientUnauthorized then 401
  else if e.code ∈ clientBadRequest then 400
  else 500

/-- The status of a statement code: every code outside the table is the caller's error. -/
def StatementError.status (e : StatementError) : Status :=
  if e.code ∈ statementUnauthorized then 401 else 400

end ErrorContract
