/-!
# Cutting lists

`cutAfter` cuts a list after every occurrence of a separator, which stays at the end of its piece.
The pieces put together are the list (`flatten_cutAfter`).
-/

namespace Calculator

variable {α : Type} [DecidableEq α]

/-- A last piece without the separator is kept; the empty list has no pieces. -/
def cutAfter (separator : α) : List α → List (List α)
  | [] => []
  | a :: rest =>
    if a = separator then [a] :: cutAfter separator rest
    else
      match cutAfter separator rest with
      | [] => [[a]]
      | piece :: pieces => (a :: piece) :: pieces

theorem flatten_cutAfter (separator : α) (t : List α) : (cutAfter separator t).flatten = t := by
  induction t with
  | nil => rfl
  | cons a rest ih => grind [cutAfter]

end Calculator
