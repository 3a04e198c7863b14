import Calculator.Proofs.Token.Separator
import Calculator.Proofs.Token.Within
import Mathlib.Data.List.DropRight

/-!
# Blanks at the ends of a text

No token begins or ends with a blank (`TokenKind.Language.dropBlank`, `TokenKind.Language.trimEnd`),
so that the blanks at the end of a text hold no part of a token (`Text.prefix_trimEnd`).
-/

namespace Calculator

open Token (AllBlank)

namespace Text

theorem drop_length_takeWhile (p : Char → Bool) (t : Text) :
    t.drop (t.takeWhile p).length = t.dropWhile p := by
  conv => lhs; arg 2; rw [← List.takeWhile_append_dropWhile (p := p) (l := t)]
  exact List.drop_left

theorem dropBlank_of_not_isBlank {c : Char} (h : ¬ isBlank c) (t : Text) :
    dropBlank (c :: t) = c :: t := by
  simp [dropBlank, h]

theorem visible_of_dropBlank {t : Text} (h : dropBlank t = t) :
    ∀ c rest, t = c :: rest → ¬ isBlank c :=
  fun _ _ hc => not_isBlank_of_dropBlank (h.trans hc)

theorem dropBlank_dropBlank (t : Text) : dropBlank (dropBlank t) = dropBlank t :=
  List.dropWhile_idempotent isBlank t

theorem allBlank_leadingBlank (t : Text) : AllBlank (leadingBlank t) :=
  List.all_eq_true.mp List.all_takeWhile

theorem dropBlank_append_of_allBlank {b : Text} (h : AllBlank b) (t : Text) :
    dropBlank (b ++ t) = dropBlank t :=
  List.dropWhile_append_of_pos h

theorem dropBlank_of_allBlank {b : Text} (h : AllBlank b) : dropBlank b = [] :=
  List.dropWhile_eq_nil_iff.mpr h

/-! ### Trimmed texts -/

theorem trimEnd_append_of_allBlank {b : Text} (h : AllBlank b) (t : Text) :
    trimEnd (t ++ b) = trimEnd t := by
  have blank : ∀ c ∈ b.reverse, isBlank c := fun c hc => h c (List.mem_reverse.mp hc)
  rw [trimEnd, List.reverse_append, List.dropWhile_append_of_pos blank]
  rfl

theorem trimEnd_append_cons {c : Char} (h : ¬ isBlank c) (t u : Text) :
    trimEnd (t ++ c :: u) = t ++ c :: trimEnd u := by
  rcases e : u.reverse.dropWhile isBlank with _ | ⟨d, v⟩ <;>
    simp [trimEnd, List.dropWhile_append, e, h]

theorem trimEnd_cons {c : Char} (h : ¬ isBlank c) (t : Text) : trimEnd (c :: t) = c :: trimEnd t :=
  trimEnd_append_cons h [] t

theorem trimEnd_trimEnd (t : Text) : trimEnd (trimEnd t) = trimEnd t :=
  List.rdropWhile_idempotent isBlank t

theorem trimEnd_append {t : Text} (h : trimEnd t = t) (u : Text) :
    trimEnd (t ++ u) = t ++ trimEnd u := by
  rcases Token.trimEnd_eq_nil_or_concat t with empty | ⟨v, c, concat, hc⟩
  · rw [← h, empty]
    rfl
  · rw [← h, concat]
    simpa using trimEnd_append_cons hc v u

theorem prefix_trimEnd {t u : Text} (h : trimEnd t = t) : t <+: trimEnd u ↔ t <+: u := by
  constructor
  · exact fun front => front.trans (Token.trimEnd_isPrefix u)
  · rintro ⟨v, rfl⟩
    rw [trimEnd_append h]
    exact List.prefix_append _ _

theorem trimEnd_of_noBlank {t : Text} (h : ∀ c ∈ t, ¬ isBlank c) : trimEnd t = t :=
  List.rdropWhile_eq_self_iff.mpr fun hl => h _ (List.getLast_mem hl)

theorem trimEnd_dropBlank_append {b : Text} (h : AllBlank b) (t : Text) :
    trimEnd (dropBlank (t ++ b)) = trimEnd (dropBlank t) := by
  induction t with
  | nil => rw [List.nil_append, dropBlank_of_allBlank h]; rfl
  | cons c t ih =>
    by_cases hc : isBlank c
    · simpa [dropBlank, hc] using ih
    · rw [List.cons_append, dropBlank_of_not_isBlank hc, dropBlank_of_not_isBlank hc,
        ← List.cons_append, trimEnd_append_of_allBlank h]

/-- Texts that differ in the blanks at their ends also do without the blanks before them. -/
theorem trimEnd_dropBlank_congr {t u : Text} (h : trimEnd t = trimEnd u) :
    trimEnd (dropBlank t) = trimEnd (dropBlank u) := by
  obtain ⟨b, blank, ht⟩ := Token.trimEnd_append_blank t
  obtain ⟨b', blank', hu⟩ := Token.trimEnd_append_blank u
  rw [ht, hu, trimEnd_dropBlank_append blank, trimEnd_dropBlank_append blank', h]

theorem head?_trimEnd {t : Text} (h : dropBlank t = t) : (trimEnd t).head? = t.head? := by
  cases t with
  | nil => rfl
  | cons c t => rw [trimEnd_cons (not_isBlank_of_dropBlank h)]; rfl

/-! ### Characters other than blanks -/

@[simp] theorem ink_append (t u : Text) : ink (t ++ u) = ink t ++ ink u :=
  List.filter_append ..

theorem ink_of_allBlank {b : Text} (h : AllBlank b) : ink b = [] :=
  List.filter_eq_nil_iff.mpr fun c hc => by simp [h c hc]

theorem ink_trimEnd (t : Text) : ink (trimEnd t) = ink t := by
  obtain ⟨b, blank, ht⟩ := Token.trimEnd_append_blank t
  conv => rhs; rw [ht, ink_append, ink_of_allBlank blank, List.append_nil]

end Text

/-! ### Tokens -/

namespace TokenKind

open Token

theorem Language.dropBlank {k : TokenKind} (hk : k ≠ .blank) {m : Text} (h : k.Language m) (t : Text) :
    Text.dropBlank (m ++ t) = m ++ t := by
  obtain ⟨c, u, rfl, first⟩ := h.first
  refine Text.dropBlank_of_not_isBlank (fun blank => ?_) (u ++ t)
  rw [family?, if_pos blank] at first
  cases k <;> first | exact hk rfl | cases first

theorem Language.leadingBlank {k : TokenKind} (hk : k ≠ .blank) {m : Text} (h : k.Language m)
    (t : Text) : Text.leadingBlank (m ++ t) = [] := by
  have parts := Text.leadingBlank_append_dropBlank (m ++ t)
  rw [h.dropBlank hk] at parts
  exact List.append_left_eq_self.mp parts

theorem Language.noBlank {k : TokenKind} (hk : k.inExpression) {m : Text} (h : k.Language m) :
    ∀ c ∈ m, ¬ Text.isBlank c :=
  fun c hc blank => h.not_inSeparator hk c hc (by simp [inSeparator, blank])

theorem eq_separator {k : TokenKind} (hk : k ≠ .blank) (outside : ¬ k.inExpression) :
    k = .separator := by
  cases k <;> first | rfl | exact absurd rfl hk | exact absurd rfl outside

theorem Language.trimEnd {k : TokenKind} (hk : k ≠ .blank) {m : Text} (h : k.Language m) :
    Text.trimEnd m = m := by
  by_cases inside : k.inExpression
  · exact Text.trimEnd_of_noBlank (h.noBlank inside)
  · obtain rfl := eq_separator hk inside
    obtain ⟨u, rfl⟩ := IsSeparator.eq_concat h
    exact trimEnd_concat_of_not_isBlank u (by decide)

/-- A token, the blanks behind it and the rest. -/
theorem split_of_longest? {k : TokenKind} {t m : Text} (h : k.longest? t = some m) :
    m ++ (Text.leadingBlank (t.drop m.length) ++ Text.dropBlank (t.drop m.length)) = t := by
  rw [Text.leadingBlank_append_dropBlank]
  exact List.prefix_iff_eq_append.mp (longest?_isPrefix h)

end TokenKind

theorem Cursor.rest_of_longest? {c : Cursor} {k : TokenKind} {m : Text}
    (h : k.longest? c.rest = some m) :
    c.rest = m ++ Text.leadingBlank (c.rest.drop m.length) ++ (c.pass k m).rest := by
  rw [List.append_assoc]
  exact (TokenKind.split_of_longest? h).symm

/-- A token and the space behind it are passed together. -/
theorem Cursor.take?_spaced {c : Cursor} {k : TokenKind} {m t : Text} (hk : k.inExpression)
    (hm : k.Language m) (ht : Text.leadingBlank t = []) (hc : c.rest = m ++ ' ' :: t) :
    ∃ d, c.take? k = some (m, d) ∧ d.rest = t ∧ d.offset = c.offset + Text.extent m + 1 := by
  have token : k.longest? c.rest = some m := by
    rw [hc, TokenKind.longest?_append_cons hk (by decide), TokenKind.longest?_self hm]
  have behind : c.rest.drop m.length = ' ' :: t := by rw [hc, List.drop_left]
  refine ⟨c.pass k m, take?_eq_some_iff.mpr ⟨token, rfl⟩, ?_, ?_⟩
  · show Text.dropBlank (c.rest.drop m.length) = t
    rw [behind]
    exact Text.dropBlank_of_leadingBlank ht
  · show c.offset + Text.extent m + Text.extent (Text.leadingBlank (c.rest.drop m.length)) = _
    have blank : Text.leadingBlank (' ' :: t) = ' ' :: Text.leadingBlank t := rfl
    rw [behind, blank, ht]
    rfl

end Calculator
