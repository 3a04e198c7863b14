import Calculator.Proofs.Grammar.Place
import Calculator.Proofs.Token.Blank

/-!
# Texts of the same tokens

Two texts are `Aligned` at a place if the tokens that may be passed from there are the same in both,
up to the blanks between them. Whatever else is looked for on the way is then found in both as well
(`Aligned.longest?`), and behind a token that is passed the texts are aligned again
(`Aligned.pass`).
-/

namespace Calculator.Grammar

open Token (AllBlank)

inductive Aligned : Place → Text → Text → Prop
  /-- The same up to the blanks at the end. -/
  | same {p : Place} {t u : Text} : Text.trimEnd t = Text.trimEnd u → Text.dropBlank t = t →
    Text.dropBlank u = u → Aligned p t u
  /-- A token, which touches what is behind it in the second text only if it does so in the
  first. -/
  | token {p q : Place} {k : TokenKind} {m b b' t u : Text} : p.Leads k m q →
    k.longest? (m ++ (b ++ t)) = some m → AllBlank b → AllBlank b' → (b ≠ [] → b' ≠ []) →
    Aligned q t u → Aligned p (m ++ (b ++ t)) (m ++ (b' ++ u))

theorem Place.Leads.ne_blank {p q : Place} {k : TokenKind} {m : Text} (h : p.Leads k m q) :
    k ≠ .blank := by
  rintro rfl
  cases h.after

namespace Aligned

variable {p q : Place} {k : TokenKind} {t u m : Text}

theorem visible (h : Aligned p t u) : Text.dropBlank t = t ∧ Text.dropBlank u = u := by
  cases h with
  | same _ ht hu => exact ⟨ht, hu⟩
  | token leads hm =>
    have language := TokenKind.longest?_language hm
    exact ⟨language.dropBlank leads.ne_blank _, language.dropBlank leads.ne_blank _⟩

theorem head?_eq (h : Aligned p t u) : t.head? = u.head? := by
  cases h with
  | same trimmed ht hu => rw [← Text.head?_trimEnd ht, trimmed, Text.head?_trimEnd hu]
  | token _ hm =>
    obtain ⟨c, r, rfl⟩ := List.exists_cons_of_ne_nil (TokenKind.longest?_ne_nil hm)
    rfl

theorem ink_eq (h : Aligned p t u) : Text.ink t = Text.ink u := by
  induction h with
  | same trimmed => rw [← Text.ink_trimEnd, trimmed, Text.ink_trimEnd]
  | token _ _ hb hb' _ _ ih =>
    simp only [Text.ink_append, Text.ink_of_allBlank hb, Text.ink_of_allBlank hb', ih]

theorem ended (h : Aligned p [] u) (q : Place) : Aligned q [] u := by
  obtain rfl : u = [] := List.head?_eq_none_iff.mp h.head?_eq.symm
  exact .same rfl rfl rfl

/-! ### What is looked for -/

/-- What begins the second text without a blank in it also begins the first. -/
theorem isPrefix_of_noBlank (h : Aligned p t u) (hm : ∀ c ∈ m, ¬ Text.isBlank c) (front : m <+: u) :
    m <+: t := by
  induction h generalizing m with
  | same trimmed =>
    have trimEnd := Text.trimEnd_of_noBlank hm
    rwa [← Text.prefix_trimEnd trimEnd, trimmed, Text.prefix_trimEnd trimEnd]
  | @token p q k n b b' t u _ _ hb hb' apart _ ih =>
    cases b' with
    | nil =>
      obtain rfl : b = [] := by_contra fun blank => apart blank rfl
      rcases List.prefix_or_prefix_of_prefix front (List.prefix_append _ _) with inside | ⟨x, rfl⟩
      · exact inside.trans (List.prefix_append _ _)
      · have front := (List.prefix_append_right_inj n).mp front
        exact (List.prefix_append_right_inj n).mpr
          (ih (fun c hc => hm c (List.mem_append_right n hc)) front)
    | cons c b' =>
      have absent : c ∉ m := fun hc => hm c hc (hb' c List.mem_cons_self)
      exact (TokenKind.prefix_of_prefix_append_cons absent front).trans (List.prefix_append _ _)

/-- A separator that stands before something else keeps its length with any blanks behind it. -/
theorem isPrefix_of_isSeparator {b b' : Text} {n : Text}
    (hm : TokenKind.separator.longest? (m ++ (b ++ t)) = some m) (hb : AllBlank b) (hb' : AllBlank b')
    (ht : Text.dropBlank t = t) (same : t.head? = u.head?) (hn : Token.IsSeparator n)
    (front : n <+: m ++ (b' ++ u)) : n <+: m := by
  obtain ⟨-, language, longest⟩ := TokenKind.isLongest_of_longest? hm
  have inside : n <+: m ++ b' := by
    cases u with
    | nil => simpa using front
    | cons c u =>
      obtain ⟨x, rfl⟩ := List.head?_eq_some_iff.mp same
      have other : c ≠ ';' := by
        rintro rfl
        have longer := longest (m ++ b ++ [';']) ⟨x, by simp⟩ (.more language hb)
        simp only [List.length_append, List.length_singleton] at longer
        omega
      have absent : c ∉ n := fun hc => by
        have := Token.IsSeparator.inSeparator hn c hc
        simp [Token.inSeparator, other, Text.not_isBlank_of_dropBlank ht] at this
      rw [← List.append_assoc] at front
      exact TokenKind.prefix_of_prefix_append_cons absent front
  have trimmed : TokenKind.separator.Language n := hn
  rw [← Text.prefix_trimEnd (trimmed.trimEnd (by decide)), Text.trimEnd_append_of_allBlank hb'] at inside
  exact inside.trans (Token.trimEnd_isPrefix m)

theorem isPrefix (h : Aligned p t u) (hk : k ≠ .blank) (hm : k.Language m) (front : m <+: u) :
    m <+: t := by
  by_cases inside : k.inExpression
  · exact h.isPrefix_of_noBlank (hm.noBlank inside) front
  · obtain rfl := TokenKind.eq_separator hk inside
    cases h with
    | same trimmed =>
      have trimEnd := hm.trimEnd (by decide)
      rwa [← Text.prefix_trimEnd trimEnd, trimmed, Text.prefix_trimEnd trimEnd]
    | @token _ q l n b b' t u leads hn hb hb' _ rest =>
      -- Both begin with `;`, so that the first token of the two texts is a separator too.
      obtain ⟨r, rfl, -⟩ := Token.IsSeparator.eq_cons hm
      obtain rfl : l = .separator := by
        obtain ⟨c, x, rfl, first⟩ := (TokenKind.longest?_language hn).first
        obtain ⟨rfl, -⟩ := List.cons_prefix_cons.mp front
        cases l <;> first | rfl | cases first
      exact (isPrefix_of_isSeparator hn hb hb' rest.visible.1 rest.head?_eq hm front).trans
        (List.prefix_append _ _)

/-- What is looked for at the place is found in both texts or in neither. -/
theorem longest? (h : Aligned p t u) (hk : p.admits k) : k.longest? t = k.longest? u := by
  have visible : k ≠ .blank := by
    rintro rfl
    cases p <;> cases hk
  refine TokenKind.longest?_congr fun n language => ⟨fun front => ?_, h.isPrefix visible language⟩
  cases h with
  | same trimmed =>
    have trimEnd := language.trimEnd visible
    rwa [← Text.prefix_trimEnd trimEnd, ← trimmed, Text.prefix_trimEnd trimEnd]
  | @token _ q l m b b' t u leads hm =>
    obtain ⟨longer, found, hle⟩ := TokenKind.exists_longest? front language
    obtain rfl := Place.text_unique hk leads.admits found hm
    have inside := List.prefix_of_prefix_length_le front (List.prefix_append _ _) hle
    exact inside.trans (List.prefix_append _ _)

/-! ### Behind a token -/

theorem pass (h : Aligned p t u) (hm : k.longest? t = some m) (leads : p.Leads k m q) :
    Aligned q (Text.dropBlank (t.drop m.length)) (Text.dropBlank (u.drop m.length)) := by
  have hm' := h.longest? leads.admits ▸ hm
  cases h with
  | same trimmed =>
    obtain ⟨x, rfl⟩ := TokenKind.longest?_isPrefix hm
    obtain ⟨y, rfl⟩ := TokenKind.longest?_isPrefix hm'
    have trimEnd := (TokenKind.longest?_language hm).trimEnd leads.ne_blank
    rw [Text.trimEnd_append trimEnd, Text.trimEnd_append trimEnd] at trimmed
    rw [List.drop_left, List.drop_left]
    exact .same (Text.trimEnd_dropBlank_congr (List.append_cancel_left trimmed))
      (Text.dropBlank_dropBlank _) (Text.dropBlank_dropBlank _)
  | @token _ q' l n b b' t u leads' hn hb hb' _ rest =>
    obtain ⟨-, rfl, rfl⟩ := leads.unique leads' hm hn
    rw [List.drop_left, List.drop_left, Text.dropBlank_append_of_allBlank hb,
      Text.dropBlank_append_of_allBlank hb', rest.visible.1, rest.visible.2]
    exact rest

/-- Blanks at the end of the second text do not matter. -/
theorem trimmed {u' : Text} (h : Aligned p t u) (same : Text.trimEnd u = Text.trimEnd u')
    (visible : Text.dropBlank u' = u') : Aligned p t u' := by
  induction h generalizing u' with
  | same trimmed ht => exact .same (trimmed.trans same) ht visible
  | @token p q k m b b' t u leads hm hb hb' apart rest ih =>
    have language := TokenKind.longest?_language hm
    cases u with
    | nil =>
      obtain rfl : t = [] := List.head?_eq_none_iff.mp rest.head?_eq
      rw [List.append_nil, Text.trimEnd_append_of_allBlank hb'] at same
      refine .same ?_ (language.dropBlank leads.ne_blank _) visible
      rw [List.append_nil, Text.trimEnd_append_of_allBlank hb, same]
    | cons c u =>
      have hc := Text.not_isBlank_of_dropBlank rest.visible.2
      obtain ⟨x, hx, whole⟩ := Token.trimEnd_append_blank u'
      rw [← same, ← List.append_assoc, Text.trimEnd_append_cons hc] at whole
      rw [whole, List.append_assoc, List.append_assoc]
      refine .token leads hm hb hb' apart (ih ?_ ?_)
      · rw [Text.trimEnd_append_of_allBlank hx, ← Text.trimEnd_cons hc, Text.trimEnd_trimEnd]
      · exact Text.dropBlank_of_not_isBlank hc _

end Aligned

end Calculator.Grammar
