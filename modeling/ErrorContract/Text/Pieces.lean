/-
  ErrorContract.Text.Pieces
  ─────────────────────────
  **LISTS CUT AT SEPARATORS.**

  A list has one piece more than separators; pieces may be empty.
-/

namespace ErrorContract.Pieces

/-- **Cut a list** at the elements that separate. -/
def cut (separates : α → Bool) : List α → List (List α)
  | [] => [[]]
  | a :: rest =>
    match cut separates rest with
    | [] => [[a]]
    | piece :: more => if separates a then [] :: piece :: more else (a :: piece) :: more

end ErrorContract.Pieces
