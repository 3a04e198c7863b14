import Calculator.Proofs.Token.Blank

/-!
# Where a cursor stands

A cursor that passes tokens stays in its text: its offset is the length of what is behind it, and it
never stands at a blank (`Cursor.Behind.pass`).
-/

namespace Calculator

namespace Text

theorem extent_pos {t : Text} (h : t ≠ []) : 0 < extent t := by
  obtain ⟨c, r, rfl⟩ := List.exists_cons_of_ne_nil h
  have := c.utf8Size_pos
  rw [extent_cons]
  omega

theorem isPrefix_of_extent_le {s t u : Text} (hs : s <+: u) (ht : t <+: u)
    (h : extent s ≤ extent t) : s <+: t := by
  rcases List.prefix_or_prefix_of_prefix hs ht with inside | ⟨x, rfl⟩
  · exact inside
  · rw [extent_append] at h
    have none : x = [] := by
      by_contra more
      have := extent_pos more
      omega
    simp [none]

end Text

namespace Cursor

/-- The cursor stands behind `front` in `source`, and not at a blank. -/
structure Behind (front source : Text) (c : Cursor) : Prop where
  whole : source = front ++ c.rest
  offset : c.offset = Text.extent front
  visible : Text.dropBlank c.rest = c.rest

theorem Behind.start (source : Text) : (start source).Behind (Text.leadingBlank source) source where
  whole := (Text.leadingBlank_append_dropBlank source).symm
  offset := rfl
  visible := Text.dropBlank_dropBlank source

theorem Behind.total {front source : Text} {c : Cursor} (h : c.Behind front source) :
    c.offset + Text.extent c.rest = Text.extent source := by
  rw [h.offset, h.whole, Text.extent_append]

theorem Behind.pass {front source m : Text} {c : Cursor} {k : TokenKind} (h : c.Behind front source)
    (hm : k.longest? c.rest = some m) :
    (c.pass k m).Behind (front ++ m ++ Text.leadingBlank (c.rest.drop m.length)) source := by
  refine ⟨?_, ?_, Text.dropBlank_dropBlank _⟩
  · show source = front ++ m ++ Text.leadingBlank (c.rest.drop m.length) ++
      Text.dropBlank (c.rest.drop m.length)
    rw [List.append_assoc, List.append_assoc, TokenKind.split_of_longest? hm, h.whole]
  · show c.offset + Text.extent m + Text.extent (Text.leadingBlank (c.rest.drop m.length)) = _
    rw [Text.extent_append, Text.extent_append, h.offset]

end Cursor

end Calculator
