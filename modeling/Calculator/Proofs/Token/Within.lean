import Calculator.Token.Cursor

/-!
# A text inside another

`Cursor.Within` relates a cursor in a text to the cursor that stands at the same place of the text
where it is a part of another. What follows there begins with no blank, so that the blanks behind
the last token are those of the text itself.
-/

namespace Calculator

namespace Text

variable {tail : Text} (h : leadingBlank tail = [])

include h

theorem dropBlank_of_leadingBlank : dropBlank tail = tail := by
  have parts := leadingBlank_append_dropBlank tail
  rwa [h] at parts

theorem leadingBlank_append (t : Text) : leadingBlank (t ++ tail) = leadingBlank t := by
  induction t with
  | nil => exact h
  | cons c t ih =>
    unfold leadingBlank at ih ⊢
    rw [List.cons_append, List.takeWhile_cons, List.takeWhile_cons, ih]

theorem dropBlank_append (t : Text) : dropBlank (t ++ tail) = dropBlank t ++ tail := by
  induction t with
  | nil => exact dropBlank_of_leadingBlank h
  | cons c t ih =>
    unfold dropBlank at ih ⊢
    rw [List.cons_append, List.dropWhile_cons, List.dropWhile_cons, ih]
    split <;> rfl

end Text

namespace Cursor

/-- The cursor `d` stands in a text with `k` bytes in front and `tail` behind where `c` stands in
the text alone, which has `n` bytes. -/
structure Within (k n : Nat) (tail : Text) (c d : Cursor) : Prop where
  offset : d.offset = c.offset + k
  rest : d.rest = c.rest ++ tail
  extent : c.offset + Text.extent c.rest = n

variable {k n : Nat} {tail : Text} {c d : Cursor}

/-- The first cursor of a text, and the place behind `k` bytes where the text begins. -/
theorem Within.enter (h : Text.leadingBlank tail = []) {t : Text}
    (offset : d.offset = k + Text.extent (Text.leadingBlank (t ++ tail)))
    (rest : d.rest = Text.dropBlank (t ++ tail)) : Within k (Text.extent t) tail (start t) d where
  offset := by
    rw [offset, Text.leadingBlank_append h, Nat.add_comm]
    rfl
  rest := rest.trans (Text.dropBlank_append h t)
  extent := by
    show Text.extent (Text.leadingBlank t) + Text.extent (Text.dropBlank t) = Text.extent t
    rw [← Text.extent_append, Text.leadingBlank_append_dropBlank]

/-- The place where a text begins that ends another. -/
theorem Within.enter_last {t : Text} (offset : d.offset = k + Text.extent (Text.leadingBlank t))
    (rest : d.rest = Text.dropBlank t) : Within k (Text.extent t) [] (.start t) d := by
  refine .enter rfl ?_ ?_
  · rwa [List.append_nil]
  · rwa [List.append_nil]

theorem Within.start (h : Text.leadingBlank tail = []) (t : Text) :
    Within 0 (Text.extent t) tail (start t) (start (t ++ tail)) :=
  .enter h (Nat.zero_add _).symm rfl

theorem Within.pass (within : Within k n tail c d) (h : Text.leadingBlank tail = [])
    {kind : TokenKind} {m : Text} (hm : kind.longest? c.rest = some m) :
    Within k n tail (c.pass kind m) (d.pass kind m) := by
  obtain ⟨x, hx⟩ := TokenKind.longest?_isPrefix hm
  have behind : c.rest.drop m.length = x := by rw [← hx, List.drop_left]
  have behind' : d.rest.drop m.length = x ++ tail := by
    rw [within.rest, ← hx, List.append_assoc, List.drop_left]
  refine ⟨?_, ?_, ?_⟩
  · show d.offset + Text.extent m + Text.extent (Text.leadingBlank (d.rest.drop m.length)) =
      c.offset + Text.extent m + Text.extent (Text.leadingBlank (c.rest.drop m.length)) + k
    rw [behind, behind', Text.leadingBlank_append h, within.offset]
    omega
  · show Text.dropBlank (d.rest.drop m.length) = Text.dropBlank (c.rest.drop m.length) ++ tail
    rw [behind, behind', Text.dropBlank_append h]
  · show c.offset + Text.extent m + Text.extent (Text.leadingBlank (c.rest.drop m.length)) +
      Text.extent (Text.dropBlank (c.rest.drop m.length)) = n
    have parts : Text.extent (Text.leadingBlank x) + Text.extent (Text.dropBlank x) =
        Text.extent x := by
      rw [← Text.extent_append, Text.leadingBlank_append_dropBlank]
    have whole : Text.extent c.rest = Text.extent m + Text.extent x := by
      rw [← hx, Text.extent_append]
    have total := within.extent
    rw [behind]
    omega

end Cursor

end Calculator
