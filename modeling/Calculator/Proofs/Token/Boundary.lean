import Calculator.Proofs.Token.Longest

/-!
# Where tokens begin and end

The first character of a token tells its kind, up to the three kinds of symbols (`family?_first`),
so at most one family of tokens begins at any place of a text. Outside of separators no token
holds a blank or a `;`, so that whatever stands behind one of these is never looked at
(`longest?_append_cons`).
-/

namespace Calculator

namespace Token

def symbolCharacters : Text :=
  [',', '=', '+', '-', '*', '/', '%', '<', '>', '&', '^', '|', '!', '~']

def inSymbol (c : Char) : Bool :=
  symbolCharacters.contains c

theorem of_inSymbol {p : Char → Bool} (all : symbolCharacters.all p) {c : Char} (h : inSymbol c) :
    p c :=
  List.all_eq_true.mp all c (List.contains_iff_mem.mp h)

theorem inSymbol_of_mem_symbol (op : Operator) : ∀ c ∈ op.symbol, inSymbol c := by
  have all : op.symbol.all inSymbol := by cases op <;> decide
  exact List.all_eq_true.mp all

theorem mem_symbols {ops : List Operator} {m : Text} (h : m ∈ ops.map Operator.symbol) :
    m ≠ [] ∧ ∀ c ∈ m, inSymbol c := by
  obtain ⟨op, -, rfl⟩ := List.mem_map.mp h
  exact ⟨symbol_ne_nil op, inSymbol_of_mem_symbol op⟩

/-! ### Classes of characters -/

theorem isBlank_eq_false {c : Char} (h : 0x21 ≤ c.toNat) (h' : c.toNat ≤ 0x7F) :
    Text.isBlank c = false := by
  simp only [Text.isBlank, Bool.or_eq_false_iff, Bool.and_eq_false_iff, beq_eq_false_iff_ne,
    decide_eq_false_iff_not]
  omega

theorem isUpper_iff {c : Char} : c.isUpper ↔ 0x41 ≤ c.toNat ∧ c.toNat ≤ 0x5A := by
  show decide (c.val ≥ 'A'.val ∧ c.val ≤ 'Z'.val) = true ↔ _
  rw [decide_eq_true_eq, ge_iff_le, UInt32.le_iff_toNat_le, UInt32.le_iff_toNat_le]
  rfl

theorem isLower_iff {c : Char} : c.isLower ↔ 0x61 ≤ c.toNat ∧ c.toNat ≤ 0x7A := by
  show (decide (c.val ≥ 'a'.val) && decide (c.val ≤ 'z'.val)) = true ↔ _
  rw [Bool.and_eq_true, decide_eq_true_eq, decide_eq_true_eq, ge_iff_le, UInt32.le_iff_toNat_le,
    UInt32.le_iff_toNat_le]
  rfl

theorem isAlpha_iff {c : Char} : c.isAlpha ↔
    (0x41 ≤ c.toNat ∧ c.toNat ≤ 0x5A) ∨ (0x61 ≤ c.toNat ∧ c.toNat ≤ 0x7A) := by
  show (c.isUpper || c.isLower) = true ↔ _
  rw [Bool.or_eq_true, isUpper_iff, isLower_iff]

theorem toNat_of_isNamePart {c : Char} (h : isNamePart c) :
    (0x30 ≤ c.toNat ∧ c.toNat ≤ 0x39) ∨ (0x41 ≤ c.toNat ∧ c.toNat ≤ 0x5A) ∨
      (0x61 ≤ c.toNat ∧ c.toNat ≤ 0x7A) ∨ c = '_' ∨ c = '$' := by
  simp only [isNamePart, Char.isAlphanum, Bool.or_eq_true, beq_iff_eq, isAlpha_iff,
    Char.isDigit_iff_toNat, Char.reduceToNat] at h
  rcases h with ((h | h) | h) | h
  · exact .inr (h.elim .inl fun h => .inr (.inl h))
  · exact .inl h
  · exact .inr (.inr (.inr (.inl h)))
  · exact .inr (.inr (.inr (.inr h)))

theorem isNamePart_of_isNameStart {c : Char} (h : isNameStart c) : isNamePart c := by
  simp only [isNameStart, isNamePart, Char.isAlphanum, Bool.or_eq_true] at h ⊢
  exact h.imp_left (Or.imp_left .inl)

theorem not_inSeparator {c : Char} (h : 0x21 ≤ c.toNat) (h' : c.toNat ≤ 0x7F) (hc : c ≠ ';') :
    ¬ inSeparator c := by
  simp [inSeparator, isBlank_eq_false h h', hc]

theorem not_inSeparator_of_isDigit {c : Char} (h : c.isDigit) : ¬ inSeparator c := by
  have : 0x30 ≤ c.toNat ∧ c.toNat ≤ 0x39 := Char.isDigit_iff_toNat.mp h
  refine not_inSeparator (by omega) (by omega) ?_
  rintro rfl
  exact absurd h (by decide)

theorem not_inSeparator_of_isNamePart {c : Char} (h : isNamePart c) : ¬ inSeparator c := by
  rcases toNat_of_isNamePart h with h' | h' | h' | rfl | rfl
  all_goals first
    | decide
    | exact not_inSeparator (by omega) (by omega) fun hc => absurd h (hc ▸ by decide)

theorem not_inSeparator_of_inSymbol {c : Char} (h : inSymbol c) : ¬ inSeparator c := by
  simpa using of_inSymbol (p := fun c => !inSeparator c) (by decide) h

/-! ### Characters of numerals and names -/

theorem AllDigits.characters {t : Text} (h : AllDigits t) : ∀ c ∈ t, isNamePart c ∨ c = '.' :=
  fun c hc => .inl (by simp [isNamePart, Char.isAlphanum, h c hc])

theorem IsSignificand.characters {s : Text} (h : IsSignificand s) :
    ∀ c ∈ s, isNamePart c ∨ c = '.' := by
  cases h with
  | whole hn hd => exact hd.characters
  | pointed hn hd hf =>
    exact List.forall_mem_append.mpr
      ⟨hd.characters, List.forall_mem_cons.mpr ⟨.inr rfl, hf.characters⟩⟩
  | fraction hn hf => exact List.forall_mem_cons.mpr ⟨.inr rfl, hf.characters⟩

theorem IsNumeral.characters {m : Text} (h : IsNumeral m) : ∀ c ∈ m, isNamePart c ∨ c = '.' := by
  cases h with
  | plain hs => exact hs.characters
  | @scaled s d mark hs hmark hn hd =>
    have hmark : isNamePart mark := by rcases hmark with rfl | rfl <;> decide
    exact List.forall_mem_append.mpr
      ⟨hs.characters, List.forall_mem_cons.mpr ⟨.inl hmark, hd.characters⟩⟩

theorem IsName.characters {m : Text} (h : IsName m) : ∀ c ∈ m, isNamePart c := by
  cases h with
  | intro hc ht => exact List.forall_mem_cons.mpr ⟨isNamePart_of_isNameStart hc, ht⟩

/-! ### First characters -/

/-- What a character can be the first of; symbols of every kind count as `operator`. -/
def family? (c : Char) : Option TokenKind :=
  if Text.isBlank c then some .blank
  else if c.isDigit || c == '.' then some .number
  else if isNameStart c then some .name
  else if c = '(' then some .openParen
  else if c = ')' then some .closeParen
  else if c = ';' then some .separator
  else if inSymbol c then some .operator
  else none

theorem family?_of_isNameStart {c : Char} (h : isNameStart c) : family? c = some .name := by
  have hblank : ¬ Text.isBlank c := fun hb =>
    not_inSeparator_of_isNamePart (isNamePart_of_isNameStart h) (by simp [inSeparator, hb])
  have hnumber : ¬ (c.isDigit || c == '.') := by
    simp only [isNameStart, Bool.or_eq_true, beq_iff_eq, isAlpha_iff] at h
    simp only [Bool.or_eq_true, beq_iff_eq, Char.isDigit_iff_toNat, Char.reduceToNat, not_or]
    rcases h with (h | rfl) | rfl
    · refine ⟨by omega, ?_⟩
      rintro rfl
      revert h
      decide
    · decide
    · decide
  rw [family?, if_neg hblank, if_neg hnumber, if_pos h]

theorem family?_of_isDigit {c : Char} (h : c.isDigit) : family? c = some .number := by
  have hblank : ¬ Text.isBlank c := fun hb =>
    not_inSeparator_of_isDigit h (by simp [inSeparator, hb])
  rw [family?, if_neg hblank, if_pos (by simp [h])]

theorem family?_of_inSymbol {c : Char} (h : inSymbol c) : family? c = some .operator := by
  simpa using of_inSymbol (p := fun c => family? c == some .operator) (by decide) h

theorem IsSignificand.first {s : Text} (hs : IsSignificand s) :
    ∃ c t, s = c :: t ∧ family? c = some .number := by
  have point : family? '.' = some .number := by decide
  cases hs with
  | @whole d hn hd | @pointed d f hn hd hf =>
    obtain ⟨c, t, rfl⟩ := List.exists_cons_of_ne_nil hn
    exact ⟨c, _, rfl, family?_of_isDigit (hd c List.mem_cons_self)⟩
  | fraction hn hf => exact ⟨'.', _, rfl, point⟩

theorem IsNumeral.first {m : Text} (hm : IsNumeral m) :
    ∃ c t, m = c :: t ∧ family? c = some .number := by
  cases hm with
  | plain hs => exact hs.first
  | scaled hs =>
    obtain ⟨c, t, rfl, hc⟩ := hs.first
    exact ⟨c, _, rfl, hc⟩

end Token

namespace TokenKind

open Token

/-- The kinds with the same first characters count as one. -/
def family : TokenKind → TokenKind
  | beforeOperand | afterVariable | operator => operator
  | k => k

theorem Language.first {k : TokenKind} {m : Text} (h : k.Language m) :
    ∃ c t, m = c :: t ∧ family? c = some k.family := by
  cases k with
  | blank =>
    obtain ⟨c, t, rfl⟩ := List.exists_cons_of_ne_nil h.1
    exact ⟨c, t, rfl, if_pos (h.2 c List.mem_cons_self)⟩
  | number => exact IsNumeral.first h
  | name =>
    cases h with
    | intro hc _ => exact ⟨_, _, rfl, family?_of_isNameStart hc⟩
  | openParen => exact ⟨_, _, h, by decide⟩
  | closeParen => exact ⟨_, _, h, by decide⟩
  | separator =>
    obtain ⟨t, rfl, -⟩ := IsSeparator.eq_cons h
    exact ⟨_, _, rfl, by decide⟩
  | beforeOperand | afterVariable | operator =>
    obtain ⟨hn, hm⟩ := mem_symbols h
    obtain ⟨c, t, rfl⟩ := List.exists_cons_of_ne_nil hn
    exact ⟨c, t, rfl, family?_of_inSymbol (hm c List.mem_cons_self)⟩

/-- Two tokens at the same place are of one family. -/
theorem family_eq {k l : TokenKind} {t m n : Text} (hm : k.longest? t = some m)
    (hn : l.longest? t = some n) : k.family = l.family := by
  obtain ⟨c, u, rfl, hc⟩ := (longest?_language hm).first
  obtain ⟨d, v, rfl, hd⟩ := (longest?_language hn).first
  obtain ⟨x, hx⟩ := longest?_isPrefix hm
  obtain ⟨y, hy⟩ := longest?_isPrefix hn
  have same : c = d := (List.cons.inj (hx.trans hy.symm)).1
  exact Option.some.inj (hc.symm.trans (same ▸ hd))

theorem longest?_eq_none {k l : TokenKind} {t m : Text} (hm : k.longest? t = some m)
    (h : l.family ≠ k.family) : l.longest? t = none := by
  cases hn : l.longest? t with
  | none => rfl
  | some n => exact absurd (family_eq hn hm) h

@[simp] theorem longest?_nil (k : TokenKind) : k.longest? [] = none := by
  cases h : k.longest? [] with
  | none => rfl
  | some m => exact absurd (List.prefix_nil.mp (longest?_isPrefix h)) (longest?_ne_nil h)

/-! ### Last characters -/

def inExpression : TokenKind → Bool
  | blank | separator => false
  | _ => true

/-- What the tokens of expressions are made of. -/
theorem Language.characters {k : TokenKind} (hk : k.inExpression) {m : Text} (h : k.Language m) :
    ∀ c ∈ m, isNamePart c ∨ inSymbol c ∨ c = '.' ∨ c = '(' ∨ (c = ')' ∧ k = .closeParen) := by
  cases k with
  | blank | separator => cases hk
  | number =>
    exact fun c hc => (IsNumeral.characters h c hc).imp_right fun point => .inr (.inl point)
  | name => exact fun c hc => .inl (IsName.characters h c hc)
  | openParen =>
    obtain rfl : m = ['('] := h
    exact List.forall_mem_singleton.mpr (.inr (.inr (.inr (.inl rfl))))
  | closeParen =>
    obtain rfl : m = [')'] := h
    exact List.forall_mem_singleton.mpr (.inr (.inr (.inr (.inr ⟨rfl, rfl⟩))))
  | beforeOperand | afterVariable | operator =>
    exact fun c hc => .inr (.inl ((mem_symbols h).2 c hc))

theorem Language.not_inSeparator {k : TokenKind} (hk : k.inExpression) {m : Text}
    (h : k.Language m) : ∀ c ∈ m, ¬ inSeparator c := by
  intro c hc
  rcases h.characters hk c hc with part | symbol | rfl | rfl | ⟨rfl, -⟩
  · exact not_inSeparator_of_isNamePart part
  · exact not_inSeparator_of_inSymbol symbol
  all_goals decide

theorem Language.closeParen_not_mem {k : TokenKind} (hk : k.inExpression) (other : k ≠ .closeParen)
    {m : Text} (h : k.Language m) : ')' ∉ m := by
  intro hc
  rcases h.characters hk ')' hc with part | symbol | point | opened | ⟨-, same⟩
  · exact absurd part (by decide)
  · exact absurd symbol (by decide)
  · exact absurd point (by decide)
  · exact absurd opened (by decide)
  · exact other same

theorem prefix_of_prefix_append_cons {n t r : Text} {c : Char} (hc : c ∉ n)
    (h : n <+: t ++ c :: r) : n <+: t := by
  refine List.prefix_of_prefix_length_le h (List.prefix_append _ _) (Nat.le_of_not_lt fun hlt => ?_)
  obtain ⟨u, hu⟩ := h
  have hget : (n ++ u)[t.length]? = some c := by simp [hu]
  rw [List.getElem?_append_left hlt] at hget
  exact hc (List.mem_of_getElem? hget)

/-- No token reaches past a character that is in none of its kind. -/
theorem longest?_append_of_not_mem {k : TokenKind} {c : Char} (outside : ∀ m, k.Language m → c ∉ m)
    (t r : Text) : k.longest? (t ++ c :: r) = k.longest? t :=
  longest?_congr fun m hm =>
    ⟨prefix_of_prefix_append_cons (outside m hm), fun front => front.trans (List.prefix_append _ _)⟩

/-- A blank or a `;` ends every token of an expression. -/
theorem longest?_append_cons {k : TokenKind} (hk : k.inExpression) {c : Char} (hc : inSeparator c)
    (t r : Text) : k.longest? (t ++ c :: r) = k.longest? t :=
  longest?_append_of_not_mem (fun _ hm h => hm.not_inSeparator hk c h hc) t r

/-! ### Commas -/

theorem eq_comma_of_mem {op : Operator} (h : ',' ∈ op.symbol) : op = .comma := by
  revert h
  cases op <;> decide

/-- A comma is an operator by itself and in no other token of an expression. -/
theorem Language.comma_not_mem {k : TokenKind} (hk : k.inExpression) (other : k ≠ .operator)
    {m : Text} (h : k.Language m) : ',' ∉ m := by
  intro hc
  cases k with
  | blank | separator => cases hk
  | number => exact absurd (IsNumeral.characters h ',' hc) (by decide)
  | name => exact absurd (IsName.characters h ',' hc) (by decide)
  | openParen =>
    obtain rfl : m = ['('] := h
    exact absurd hc (by decide)
  | closeParen =>
    obtain rfl : m = [')'] := h
    exact absurd hc (by decide)
  | beforeOperand =>
    obtain ⟨op, hop, rfl⟩ := List.mem_map.mp h
    obtain rfl := eq_comma_of_mem hc
    exact absurd hop (by decide)
  | afterVariable =>
    obtain ⟨op, hop, rfl⟩ := List.mem_map.mp h
    obtain rfl := eq_comma_of_mem hc
    exact absurd hop (by decide)
  | operator => exact other rfl

theorem longest?_append_comma {k : TokenKind} (hk : k.inExpression) (other : k ≠ .operator)
    (t r : Text) : k.longest? (t ++ ',' :: r) = k.longest? t :=
  longest?_append_of_not_mem (fun _ hm => hm.comma_not_mem hk other) t r

/-- An operator that begins before a comma ends before it. -/
theorem longest?_operator_append_comma {t : Text} (more : t ≠ []) (r : Text) :
    operator.longest? (t ++ ',' :: r) = operator.longest? t := by
  refine longest?_congr fun m hm => ⟨fun front => ?_, fun front => front.trans (List.prefix_append _ _)⟩
  obtain ⟨op, -, rfl⟩ := List.mem_map.mp hm
  by_cases inside : ',' ∈ op.symbol
  · obtain rfl := eq_comma_of_mem inside
    obtain ⟨c, t, rfl⟩ := List.exists_cons_of_ne_nil more
    obtain ⟨rfl, -⟩ := List.cons_prefix_cons.mp front
    exact List.cons_prefix_cons.mpr ⟨rfl, List.nil_prefix⟩
  · exact prefix_of_prefix_append_cons inside front

theorem longest?_operator_comma (r : Text) : operator.longest? (',' :: r) = some [','] := by
  refine longest?_eq_some_iff.mpr ⟨List.prefix_append [','] r, language_symbol .comma, ?_⟩
  intro n front hn
  obtain ⟨op, -, rfl⟩ := List.mem_map.mp hn
  obtain ⟨c, t, symbol⟩ := List.exists_cons_of_ne_nil (symbol_ne_nil op)
  rw [symbol] at front
  obtain ⟨rfl, -⟩ := List.cons_prefix_cons.mp front
  have inside : ',' ∈ op.symbol := by rw [symbol]; exact List.mem_cons_self
  obtain rfl := eq_comma_of_mem inside
  exact Nat.le_refl _

end TokenKind

end Calculator
