/-!
# Pieces between marks
-/

namespace LiveQuery.Text

/-- The pieces of a list between elements of a kind; there is one more of them than marks. -/
def pieces (isMark : α → Bool) : List α → List (List α)
  | [] => [[]]
  | a :: rest =>
    match pieces isMark rest with
    | [] => [[a]]
    | piece :: more => if isMark a then [] :: piece :: more else (a :: piece) :: more

end LiveQuery.Text
