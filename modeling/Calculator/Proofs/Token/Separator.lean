import Calculator.Proofs.Token.Boundary
import Calculator.Proofs.Token.Operators

/-!
# Separators in a longer text

A separator takes as many `;` as stand together, so that one at the end of a text grows when a `;`
is put behind it (`longest?_separator_concat`). One with anything else behind it does not
(`longest?_separator_append`).
-/

namespace Calculator

namespace Token

theorem IsSeparator.inSeparator {m : Text} (h : IsSeparator m) : ∀ c ∈ m, inSeparator c := by
  obtain ⟨t, rfl, ht, -⟩ := h.eq_cons
  exact List.forall_mem_cons.mpr ⟨rfl, ht⟩

theorem IsSeparator.eq_concat {m : Text} (h : IsSeparator m) : ∃ t, m = t ++ [';'] := by
  cases h with
  | single => exact ⟨[], rfl⟩
  | more _ _ => exact ⟨_, rfl⟩

end Token

theorem Text.not_isBlank_of_dropBlank {t u : Text} {c : Char} (h : Text.dropBlank t = c :: u) :
    ¬ Text.isBlank c := by
  have head := List.head?_dropWhile_not Text.isBlank t
  rw [show t.dropWhile Text.isBlank = c :: u from h] at head
  simpa using head

namespace TokenKind

open Token

theorem longest?_separator_eq_none {c : Char} {t : Text} (h : separator.longest? (c :: t) = none)
    (r : Text) : separator.longest? (c :: r) = none := by
  have other : c ≠ ';' := by
    rintro rfl
    cases h
  simp [longest?, separator?, other]

theorem longest?_separator_append {t m u : Text} {c : Char} (h : separator.longest? t = some m)
    (stop : Text.dropBlank (t.drop m.length) = c :: u) (r : Text) :
    separator.longest? (t ++ r) = some m := by
  obtain ⟨front, language, longest⟩ := isLongest_of_longest? h
  obtain ⟨x, rfl⟩ := front
  rw [List.drop_left] at stop
  have parts : x = Text.leadingBlank x ++ c :: u := by
    rw [← stop, Text.leadingBlank_append_dropBlank]
  have outside : ¬ inSeparator c := by
    intro hc
    have semicolon : c = ';' := by
      simpa [inSeparator, Text.not_isBlank_of_dropBlank stop] using hc
    have blank : AllBlank (Text.leadingBlank x) := List.all_eq_true.mp List.all_takeWhile
    have longer := longest (m ++ Text.leadingBlank x ++ [';'])
      ⟨u, by rw [semicolon] at parts; simpa using congrArg (m ++ ·) parts.symm⟩
      (IsSeparator.more language blank)
    simp only [List.length_append, List.length_singleton] at longer
    omega
  refine longest?_eq_some_iff.mpr ⟨⟨x ++ r, by simp⟩, language, fun n hn hsep => ?_⟩
  have absent : c ∉ n := fun hc => outside (IsSeparator.inSeparator hsep c hc)
  rw [parts, show m ++ (Text.leadingBlank x ++ c :: u) ++ r =
    (m ++ Text.leadingBlank x) ++ c :: (u ++ r) by simp] at hn
  have inside := prefix_of_prefix_append_cons absent hn
  exact longest n (inside.trans ⟨c :: u, by rw [List.append_assoc, ← parts]⟩) hsep

/-- A `;` behind separators, or behind nothing, and behind it neither another one nor the end. -/
theorem longest?_separator_concat {r b u : Text} {c : Char} (hr : ∀ d ∈ r, inSeparator d)
    (starts : r = [] ∨ ∃ x, r = ';' :: x) (first : Text.dropBlank b = c :: u) (hc : c ≠ ';') :
    separator.longest? (r ++ ';' :: b) = some (r ++ [';']) := by
  have parts : b = Text.leadingBlank b ++ c :: u := by
    rw [← first, Text.leadingBlank_append_dropBlank]
  have outside : ¬ inSeparator c := by
    simp [inSeparator, hc, Text.not_isBlank_of_dropBlank first]
  have language : IsSeparator (r ++ [';']) := by
    rcases starts with rfl | ⟨x, rfl⟩
    · exact .single
    · have trimmed := trimEnd_concat_of_not_isBlank x (c := ';') (by decide)
      have inside : ∀ d ∈ x ++ [';'], inSeparator d := List.forall_mem_append.mpr
        ⟨fun d hd => hr d (List.mem_cons_of_mem _ hd), by simp [inSeparator]⟩
      have := isSeparator_cons_trimEnd (x ++ [';']) inside
      rwa [trimmed] at this
  refine longest?_eq_some_iff.mpr ⟨⟨b, by simp⟩, language, fun n hn hsep => ?_⟩
  have absent : c ∉ n := fun h => outside (IsSeparator.inSeparator hsep c h)
  obtain ⟨v, rfl⟩ := IsSeparator.eq_concat hsep
  rw [parts, show r ++ ';' :: (Text.leadingBlank b ++ c :: u) =
    (r ++ ';' :: Text.leadingBlank b) ++ c :: u by simp] at hn
  obtain ⟨w, hw⟩ := prefix_of_prefix_append_cons absent hn
  refine Nat.le_of_not_lt fun longer => ?_
  -- The last `;` would stand among the blanks that `b` begins with.
  have last : (r ++ [';'] ++ Text.leadingBlank b)[v.length]? = some ';' := by
    rw [List.append_assoc]
    simp [← hw]
  simp only [List.length_append, List.length_singleton] at longer
  rw [List.getElem?_append_right (by simp; omega)] at last
  have blank := List.all_eq_true.mp (List.all_takeWhile (l := b) (p := Text.isBlank)) ';'
    (List.mem_of_getElem? last)
  exact absurd blank (by decide)

end TokenKind

namespace Cursor

theorem eq_append_of_take? {c d : Cursor} {k : TokenKind} {m : Text}
    (taken : c.take? k = some (m, d)) : ∃ x, c.rest = m ++ Text.leadingBlank x ++ d.rest := by
  obtain ⟨hm, rfl⟩ := take?_eq_some_iff.mp taken
  obtain ⟨x, hx⟩ := TokenKind.longest?_isPrefix hm
  refine ⟨x, ?_⟩
  show c.rest = m ++ Text.leadingBlank x ++ Text.dropBlank (c.rest.drop m.length)
  rw [← hx, List.drop_left, List.append_assoc, Text.leadingBlank_append_dropBlank]

/-- A text that ends in a separator is one, up to its blanks. -/
theorem inSeparator_of_take? {c d : Cursor} {m : Text} (taken : c.take? .separator = some (m, d))
    (done : d.rest = []) : (∀ x ∈ c.rest, Token.inSeparator x) ∧ ∃ r, c.rest = ';' :: r := by
  have language : Token.IsSeparator m :=
    TokenKind.longest?_language (take?_eq_some_iff.mp taken).1
  obtain ⟨x, whole⟩ := eq_append_of_take? taken
  rw [done, List.append_nil] at whole
  rw [whole]
  constructor
  · refine List.forall_mem_append.mpr ⟨language.inSeparator, fun y hy => ?_⟩
    have blank := List.all_eq_true.mp (List.all_takeWhile (l := x) (p := Text.isBlank)) y hy
    simp [Token.inSeparator, blank]
  · obtain ⟨t, rfl, -⟩ := language.eq_cons
    exact ⟨_, rfl⟩

end Cursor

end Calculator
