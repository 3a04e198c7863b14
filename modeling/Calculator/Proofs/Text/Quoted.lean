import Calculator.Proofs.Token.Boundary
import Calculator.Text.Quoted
import Mathlib.Data.List.Basic

/-!
# Quoted text

Whatever a text is made of, its quotation can be seen (`Text.isPrintable_of_mem_quote`): what is in a
range of code points that have no sign of their own is escaped (`Text.escape_eq_self_iff`). A quotation
tells the text that is quoted and where it ends (`Text.quote_append_inj`), and tokens are quoted as they
are (`TokenKind.Language.quote`).
-/

namespace Calculator

/-- A delimiter ends a run of other elements. -/
theorem append_cons_inj {α : Type} {p : α → Bool} {s s' : List α} {c c' : α} {r r' : List α}
    (inside : ∀ x ∈ s, p x) (inside' : ∀ x ∈ s', p x) (ended : ¬ p c) (ended' : ¬ p c')
    (h : s ++ c :: r = s' ++ c' :: r') : s = s' ∧ c :: r = c' :: r' := by
  have front := congrArg (List.takeWhile p) h
  rw [List.takeWhile_append_of_pos inside, List.takeWhile_append_of_pos inside',
    List.takeWhile_cons_of_neg ended, List.takeWhile_cons_of_neg ended', List.append_nil,
    List.append_nil] at front
  subst front
  exact ⟨rfl, List.append_cancel_left h⟩

/-! ### Digits of a number -/

theorem digitChar_inj : ∀ m < 16, ∀ n < 16, Nat.digitChar m = Nat.digitChar n → m = n := by
  decide

section Digits

variable {b : Nat} (base : 1 < b)

include base

theorem toDigits_concat (n : Nat) : Nat.toDigits b n =
    (if n < b then [] else Nat.toDigits b (n / b)) ++ [Nat.digitChar (n % b)] := by
  rw [Nat.toDigits_eq_if base]
  split
  case isTrue less => rw [Nat.mod_eq_of_lt less]; rfl
  case isFalse => rfl

theorem mem_toDigits {n : Nat} {c : Char} (h : c ∈ Nat.toDigits b n) :
    ∃ d < b, c = Nat.digitChar d := by
  induction n using Nat.strongRecOn with
  | ind n ih =>
    rw [toDigits_concat base] at h
    rcases List.mem_append.mp h with front | last
    · split at front
      · cases front
      · exact ih (n / b) (Nat.div_lt_self (by omega) base) front
    · exact ⟨n % b, Nat.mod_lt n (by omega), List.mem_singleton.mp last⟩

theorem toDigits_inj (single : b ≤ 16) {m n : Nat} (h : Nat.toDigits b m = Nat.toDigits b n) :
    m = n := by
  induction m using Nat.strongRecOn generalizing n with
  | ind m ih =>
    rw [toDigits_concat base m, toDigits_concat base n] at h
    obtain ⟨front, last⟩ := List.append_inj' h rfl
    have digit : m % b = n % b := by
      have := Nat.mod_lt m (Nat.zero_lt_of_lt base)
      have := Nat.mod_lt n (Nat.zero_lt_of_lt base)
      exact digitChar_inj _ (by omega) _ (by omega) (List.cons.inj last).1
    have quotient : m / b = n / b := by
      split at front <;> split at front
      case isTrue.isTrue less less' => rw [Nat.div_eq_of_lt less, Nat.div_eq_of_lt less']
      case isTrue.isFalse => exact absurd front.symm Nat.toDigits_ne_nil
      case isFalse.isTrue => exact absurd front Nat.toDigits_ne_nil
      case isFalse.isFalse => exact ih (m / b) (Nat.div_lt_self (by omega) base) front
    rw [← Nat.div_add_mod m b, ← Nat.div_add_mod n b, quotient, digit]

end Digits

namespace Text

/-! ### Characters of a quotation -/

/-- A printable character is in none of the ranges. -/
theorem isPrintable_iff {c : Char} : isPrintable c ↔
    ∀ r ∈ invisibleRanges ++ combiningRanges, ¬ (r.1 ≤ c.toNat ∧ c.toNat ≤ r.2) := by
  have invisible : isInvisible c ↔ _ := inRanges_iff ascending_invisibleRanges
  have combining : isCombining c ↔ _ := inRanges_iff ascending_combiningRanges
  simp only [isPrintable, Bool.and_eq_true, Bool.not_eq_true', ← Bool.not_eq_true, invisible, combining,
    List.forall_mem_append, not_exists, not_and]

/-- The character that a backslash and a letter stand for. -/
def named : Char → Char
  | 'n' => '\n'
  | 'r' => '\r'
  | 't' => '\t'
  | '0' => '\x00'
  | c => c

theorem escape_cases (c : Char) :
    (escape c = [c] ∧ isPrintable c ∧ c ≠ '"' ∧ c ≠ '\\') ∨
    (∃ x, escape c = ['\\', x] ∧ isPrintable x ∧ x ≠ 'u' ∧ named x = c) ∨
    escape c = codePointEscape c := by
  unfold escape
  split
  case h_7 quote backslash _ _ _ _ =>
    split
    case isTrue shown => exact .inl ⟨rfl, shown, quote, backslash⟩
    case isFalse => exact .inr (.inr rfl)
  all_goals exact .inr (.inl ⟨_, rfl, by decide, by decide, rfl⟩)

/-- A character is shown as it is unless it is a quotation mark, a backslash or in one of the ranges. -/
theorem escape_eq_self_iff {c : Char} : escape c = [c] ↔ c ≠ '"' ∧ c ≠ '\\' ∧
    ∀ r ∈ invisibleRanges ++ combiningRanges, ¬ (r.1 ≤ c.toNat ∧ c.toNat ≤ r.2) := by
  rw [← isPrintable_iff]
  constructor
  · intro same
    rcases escape_cases c with ⟨-, shown, marks⟩ | ⟨x, long, -⟩ | long
    · exact ⟨marks.1, marks.2, shown⟩
    · cases same.symm.trans long
    · cases same.symm.trans long
  · rintro ⟨quote, backslash, shown⟩
    unfold escape
    split
    case h_7 => rw [if_pos shown]
    case h_1 => exact absurd rfl quote
    case h_2 => exact absurd rfl backslash
    all_goals exact absurd shown (by decide)

theorem isPrintable_of_mem_codePointEscape {c x : Char} (h : x ∈ codePointEscape c) :
    isPrintable x := by
  have digit : ∀ d < 16, isPrintable (Nat.digitChar d) := by decide
  rcases List.mem_append.mp h with front | last
  · rcases List.mem_append.mp front with front | digits
    · have shown : (['\\', 'u', '\x7b'] : Text).all isPrintable := by decide
      exact List.all_eq_true.mp shown x front
    · obtain ⟨d, less, rfl⟩ := mem_toDigits (by decide) digits
      exact digit d less
  · rw [List.mem_singleton.mp last]
    decide

theorem isPrintable_of_mem_escape {c x : Char} (h : x ∈ escape c) : isPrintable x := by
  rcases escape_cases c with ⟨same, shown, -⟩ | ⟨y, same, shown, -⟩ | same
  · rw [same] at h
    exact List.mem_singleton.mp h ▸ shown
  · rw [same] at h
    rcases List.mem_cons.mp h with rfl | last
    · decide
    · exact List.mem_singleton.mp last ▸ shown
  · exact isPrintable_of_mem_codePointEscape (same ▸ h)

/-- Whatever a text is made of, its quotation can be seen. -/
theorem isPrintable_of_mem_quote {t : Text} {c : Char} (h : c ∈ quote t) : isPrintable c := by
  rcases List.mem_append.mp h with front | last
  · rcases List.mem_cons.mp front with rfl | inside
    · decide
    · obtain ⟨d, -, hd⟩ := List.mem_flatMap.mp inside
      exact isPrintable_of_mem_escape hd
  · rw [List.mem_singleton.mp last]
    decide

/-! ### Reading a quotation -/

theorem brace_not_mem_digits (c : Char) : ∀ x ∈ Nat.toDigits 16 c.toNat, x != '\x7d' := by
  have digit : ∀ d < 16, Nat.digitChar d != '\x7d' := by decide
  intro x hx
  obtain ⟨d, less, rfl⟩ := mem_toDigits (by decide) hx
  exact digit d less

theorem codePointEscape_append_inj {c d : Char} {s r : Text}
    (h : codePointEscape c ++ s = codePointEscape d ++ r) : c = d ∧ s = r := by
  unfold codePointEscape at h
  rw [List.append_assoc, List.append_assoc, List.append_assoc, List.append_assoc,
    List.append_cancel_left_eq] at h
  obtain ⟨digits, behind⟩ := append_cons_inj (brace_not_mem_digits c) (brace_not_mem_digits d)
    (by decide) (by decide) h
  exact ⟨Char.toNat_inj.mp (toDigits_inj (by decide) (by decide) digits), (List.cons.inj behind).2⟩

/-- An escape tells its character and where it ends. -/
theorem escape_append_inj {c d : Char} {s r : Text} (h : escape c ++ s = escape d ++ r) :
    c = d ∧ s = r := by
  rcases escape_cases c with ⟨hc, -, -, plain⟩ | ⟨x, hc, -, other, rfl⟩ | hc <;>
    rcases escape_cases d with ⟨hd, -, -, plain'⟩ | ⟨y, hd, -, other', rfl⟩ | hd <;>
    rw [hc, hd] at h
  · exact List.cons.inj h
  · exact absurd (List.cons.inj h).1 plain
  · exact absurd (List.cons.inj h).1 plain
  · exact absurd (List.cons.inj h).1.symm plain'
  · obtain ⟨same, rest⟩ := List.cons.inj (List.cons.inj h).2
    exact ⟨congrArg named same, rest⟩
  · exact absurd (List.cons.inj (List.cons.inj h).2).1 other
  · exact absurd (List.cons.inj h).1.symm plain'
  · exact absurd (List.cons.inj (List.cons.inj h).2).1.symm other'
  · exact codePointEscape_append_inj h

/-- No escape begins as the quotation ends. -/
theorem escape_append_ne (c : Char) (s r : Text) : escape c ++ s ≠ '"' :: r := by
  intro h
  rcases escape_cases c with ⟨hc, -, quote, -⟩ | ⟨x, hc, -⟩ | hc <;> rw [hc] at h
  · exact quote (List.cons.inj h).1
  · exact absurd (List.cons.inj h).1 (by decide)
  · exact absurd (List.cons.inj h).1 (by decide)

theorem flatMap_escape_inj {t u s r : Text}
    (h : t.flatMap escape ++ '"' :: s = u.flatMap escape ++ '"' :: r) : t = u ∧ s = r := by
  induction t generalizing u with
  | nil =>
    cases u with
    | nil => exact ⟨rfl, (List.cons.inj h).2⟩
    | cons d u =>
      rw [List.flatMap_cons, List.append_assoc] at h
      exact absurd h.symm (escape_append_ne d _ s)
  | cons c t ih =>
    rw [List.flatMap_cons, List.append_assoc] at h
    cases u with
    | nil => exact absurd h (escape_append_ne c _ r)
    | cons d u =>
      rw [List.flatMap_cons, List.append_assoc] at h
      obtain ⟨rfl, behind⟩ := escape_append_inj h
      obtain ⟨rfl, same⟩ := ih behind
      exact ⟨rfl, same⟩

/-- A quotation tells the text that is quoted and where it ends, whatever follows. -/
theorem quote_append_inj {t u s r : Text} (h : quote t ++ s = quote u ++ r) : t = u ∧ s = r := by
  unfold quote at h
  rw [List.append_assoc, List.append_assoc] at h
  exact flatMap_escape_inj (List.cons.inj h).2

theorem quote_inj {t u : Text} (h : quote t = quote u) : t = u :=
  (quote_append_inj (congrArg (· ++ []) h)).1

/-! ### Quotations of tokens -/

theorem quote_of_ascii {t : Text}
    (h : ∀ c ∈ t, 0x20 ≤ c.toNat ∧ c.toNat < 0x7F ∧ c ≠ '"' ∧ c ≠ '\\') :
    quote t = '"' :: t ++ ['"'] := by
  have same : t.flatMap escape = t := by
    refine (List.flatMap_congr fun c hc => ?_).trans (List.flatMap_singleton' t)
    obtain ⟨above, below, quote, backslash⟩ := h c hc
    have shown := (isPrintable_iff_of_ascii (by omega)).mpr ⟨above, below⟩
    exact escape_eq_self_iff.mpr ⟨quote, backslash, isPrintable_iff.mp shown⟩
  rw [quote, same]

end Text

/-- The tokens of expressions are quoted as they are. -/
theorem TokenKind.Language.quote {k : TokenKind} (hk : k.inExpression) {m : Text}
    (h : k.Language m) : Text.quote m = '"' :: m ++ ['"'] := by
  refine Text.quote_of_ascii fun c hc => ?_
  rcases h.characters hk c hc with part | symbol | rfl | rfl | ⟨rfl, -⟩
  · have ascii : 0x20 ≤ c.toNat ∧ c.toNat < 0x7F := by
      rcases Token.toNat_of_isNamePart part with h | h | h | rfl | rfl <;> first | omega | decide
    have marks : c ≠ '"' ∧ c ≠ '\\' := by
      constructor <;>
        rintro rfl <;>
        exact absurd part (by decide)
    exact ⟨ascii.1, ascii.2, marks⟩
  · have ascii := Token.of_inSymbol
      (p := fun c => 0x20 ≤ c.toNat && c.toNat < 0x7F && c != '"' && c != '\\') (by decide) symbol
    simpa [and_assoc] using ascii
  all_goals decide

end Calculator
