/-!
# Text

A `Text` is a list of characters. `Text.extent` measures it in UTF-8 bytes, the unit of every
offset of this library, and `Text.upTo?` cuts it at an offset.
-/

namespace Calculator

abbrev Text := List Char

namespace Text

/-- Length in UTF-8 bytes. -/
def extent : Text → Nat
  | [] => 0
  | c :: t => c.utf8Size + extent t

@[simp] theorem extent_nil : extent [] = 0 := rfl

@[simp] theorem extent_cons (c : Char) (t : Text) : extent (c :: t) = c.utf8Size + extent t := rfl

@[simp] theorem extent_append (s t : Text) : extent (s ++ t) = extent s + extent t := by
  induction s with
  | nil => simp
  | cons c s ih => simp [ih, Nat.add_assoc]

/-- The first `n` bytes, if they end between two characters. -/
def upTo? : Nat → Text → Option Text
  | 0, _ => some []
  | _ + 1, [] => none
  | n + 1, c :: t =>
    if c.utf8Size ≤ n + 1 then (upTo? (n + 1 - c.utf8Size) t).map (c :: ·) else none

theorem upTo?_extent (s t : Text) : upTo? (extent s) (s ++ t) = some s := by
  induction s with
  | nil => simp [upTo?]
  | cons c s ih =>
    obtain ⟨n, hn⟩ : ∃ n, extent (c :: s) = n + 1 :=
      ⟨extent (c :: s) - 1, by have := c.utf8Size_pos; simp only [extent_cons]; omega⟩
    rw [hn, List.cons_append, upTo?]
    have hs : n + 1 - c.utf8Size = extent s := by rw [← hn]; simp
    have hc : c.utf8Size ≤ n + 1 := by rw [← hn]; simp
    rw [if_pos hc, hs, ih]
    rfl

end Text

end Calculator
