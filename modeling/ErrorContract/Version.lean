/-
  ErrorContract.Version
  ─────────────────────
  **THE VERSION OF THE SERVER.**
-/

namespace ErrorContract

/-- The version that the server gives as its own. -/
def version : String := "0.1.0"

end ErrorContract
