import Calculator.Token.Language

/-!
# Matchers find the longest token

`TokenKind.longest?_eq_some_iff` shows that the matcher of every kind finds the longest token of
its language, and that it finds nothing only where the text begins with no token of the kind. For
each kind this takes two facts: what is found belongs to the language, and no token at the start of
the text is longer.
-/

namespace Calculator

namespace Token

/-! ### Numerals -/

theorem allDigits_toDigits (n : Nat) : AllDigits (Nat.toDigits 10 n) :=
  fun _ hc => Nat.isDigit_of_mem_toDigits (by decide) (by decide) hc

theorem allDigits_digits (t : Text) : AllDigits (digits t) := fun c hc => by
  simpa using List.all_eq_true.mp (List.all_takeWhile (p := Char.isDigit) (l := t)) c hc

theorem digits_append {d : Text} (hd : AllDigits d) (r : Text) :
    digits (d ++ r) = d ++ digits r :=
  List.takeWhile_append_of_pos hd

theorem dropDigits_append {d : Text} (hd : AllDigits d) (r : Text) :
    (d ++ r).dropWhile Char.isDigit = r.dropWhile Char.isDigit :=
  List.dropWhile_append_of_pos hd

theorem significand_pointed {d : Text} (hd : AllDigits d) {r : Text} (h : d ≠ [] ∨ digits r ≠ []) :
    significand (d ++ '.' :: r) = d ++ '.' :: digits r := by
  have hpoint : digits ('.' :: r) = [] := rfl
  have hdrop : (d ++ '.' :: r).dropWhile Char.isDigit = '.' :: r := dropDigits_append hd _
  rw [significand, hdrop, digits_append hd, hpoint, List.append_nil]
  exact if_neg fun hn => h.elim (· hn.1) (· hn.2)

theorem significand_whole {t : Text} (h : ∀ r, t.dropWhile Char.isDigit ≠ '.' :: r) :
    significand t = digits t := by
  unfold significand
  split
  case h_1 r hr => exact absurd hr (h r)
  case h_2 => rfl

theorem significand_isSignificand {t : Text} (h : significand t ≠ []) :
    IsSignificand (significand t) := by
  by_cases hp : ∃ r, t.dropWhile Char.isDigit = '.' :: r
  · obtain ⟨r, hr⟩ := hp
    have ht : t = digits t ++ '.' :: r := by
      rw [← hr]
      exact (List.takeWhile_append_dropWhile).symm
    by_cases hn : digits t = [] ∧ digits r = []
    · exact absurd (by simp [significand, hr, hn]) h
    have hs : significand t = digits t ++ '.' :: digits r := by simp [significand, hr, hn]
    rw [hs]
    by_cases hd : digits t = []
    · rw [hd]
      exact .fraction (fun hf => hn ⟨hd, hf⟩) (allDigits_digits r)
    · exact .pointed hd (allDigits_digits t) (allDigits_digits r)
  · have hs := significand_whole (not_exists.mp hp)
    rw [hs] at h ⊢
    exact .whole h (allDigits_digits t)

/-- Neither a digit nor a point can continue a numeral up to its exponent. -/
theorem significand_append {s : Text} (hs : IsSignificand s) {c : Char} (hc : ¬ c.isDigit)
    (hp : c ≠ '.') (r : Text) : significand (s ++ c :: r) = s := by
  have hstop : digits (c :: r) = [] := by simp [digits, hc]
  cases hs with
  | @whole d hn hd =>
    have hdrop : (s ++ c :: r).dropWhile Char.isDigit = c :: r := by
      rw [dropDigits_append hd]
      simp [hc]
    rw [significand_whole (by simp [hdrop, hp]), digits_append hd, hstop, List.append_nil]
  | @pointed d f hn hd hf =>
    rw [List.append_assoc, List.cons_append, significand_pointed hd (.inl hn), digits_append hf,
      hstop, List.append_nil]
  | @fraction f hn hf =>
    have hdigits : digits (f ++ c :: r) = f := by rw [digits_append hf, hstop, List.append_nil]
    have h := significand_pointed (d := []) (fun _ h => nomatch h) (.inr (hdigits ▸ hn))
    simpa [hdigits] using h

theorem length_le_significand {s : Text} (hs : IsSignificand s) (r : Text) :
    s.length ≤ (significand (s ++ r)).length := by
  cases hs with
  | whole hn hd =>
    by_cases hp : ∃ u, r.dropWhile Char.isDigit = '.' :: u
    · obtain ⟨u, hu⟩ := hp
      have hr : r = digits r ++ '.' :: u := by
        rw [← hu]
        exact (List.takeWhile_append_dropWhile).symm
      have hall : AllDigits (s ++ digits r) := fun c hc =>
        (List.mem_append.mp hc).elim (hd c) (allDigits_digits r c)
      rw [hr, ← List.append_assoc, significand_pointed hall (.inl (by simp [hn]))]
      simp only [List.length_append]
      omega
    · rw [significand_whole (by simpa [dropDigits_append hd] using hp), digits_append hd]
      simp
  | pointed hn hd hf =>
    rw [List.append_assoc, List.cons_append, significand_pointed hd (.inl hn), digits_append hf]
    simp
  | @fraction f hn hf =>
    have h := significand_pointed (d := []) (r := f ++ r) (fun _ h => nomatch h)
      (.inr (by simp [digits_append hf, hn]))
    simp only [List.nil_append] at h
    rw [List.cons_append, h, digits_append hf]
    simp

theorem IsSignificand.ne_nil {s : Text} (hs : IsSignificand s) : s ≠ [] := by
  cases hs <;> simp_all

theorem numeral?_isNumeral {t m : Text} (h : numeral? t = some m) : IsNumeral m := by
  unfold numeral? at h
  split at h
  case isTrue => contradiction
  case isFalse hs =>
    injection h with h
    have hsig := significand_isSignificand hs
    generalize t.drop (significand t).length = r at h
    cases r with
    | nil => exact h ▸ (List.append_nil _).symm ▸ .plain hsig
    | cons c r =>
      rw [scale] at h
      split at h
      case isTrue hc => exact h ▸ .scaled hsig hc.1 hc.2 (allDigits_digits r)
      case isFalse => exact h ▸ (List.append_nil _).symm ▸ .plain hsig

theorem exists_numeral? {n : Text} (hn : IsNumeral n) (r : Text) :
    ∃ m, numeral? (n ++ r) = some m ∧ n.length ≤ m.length := by
  cases hn with
  | plain hs =>
    have hle := length_le_significand hs r
    have hne : significand (n ++ r) ≠ [] := fun h => hs.ne_nil (by simpa [h] using hle)
    refine ⟨_, if_neg hne, ?_⟩
    rw [List.length_append]
    omega
  | @scaled s d mark hs hmark hd hall =>
    have hc : ¬ mark.isDigit ∧ mark ≠ '.' := by rcases hmark with rfl | rfl <;> decide
    have hsig : significand (s ++ mark :: d ++ r) = s := by
      rw [List.append_assoc, List.cons_append]
      exact significand_append hs hc.1 hc.2 _
    refine ⟨s ++ (mark :: (d ++ digits r)), ?_, by simp⟩
    have hscale : scale (mark :: (d ++ r)) = mark :: (d ++ digits r) := by
      rw [scale, digits_append hall, if_pos ⟨hmark, by simp [hd]⟩]
    rw [numeral?, hsig, if_neg hs.ne_nil, List.append_assoc, List.drop_left, List.cons_append,
      hscale]

/-! ### Names and separators -/

theorem name?_isName {t m : Text} (h : name? t = some m) : IsName m := by
  unfold name? at h
  split at h
  case h_1 c r =>
    split at h
    case isTrue hc =>
      injection h with h
      subst h
      exact .intro hc (List.all_eq_true.mp List.all_takeWhile)
    case isFalse => contradiction
  case h_2 => contradiction

theorem exists_name? {n : Text} (hn : IsName n) (r : Text) :
    ∃ m, name? (n ++ r) = some m ∧ n.length ≤ m.length := by
  cases hn with
  | @intro c t hc ht =>
    refine ⟨c :: (t ++ r).takeWhile isNamePart, ?_, ?_⟩
    · rw [List.cons_append, name?, if_pos hc]
    · rw [List.takeWhile_append_of_pos ht]
      simp

def inSeparator (c : Char) : Bool :=
  c == ';' || Text.isBlank c

theorem trimEnd_concat_of_not_isBlank (t : Text) {c : Char} (hc : ¬ Text.isBlank c) :
    Text.trimEnd (t ++ [c]) = t ++ [c] := by
  simp [Text.trimEnd, hc]

theorem trimEnd_append_blank (t : Text) : ∃ b, AllBlank b ∧ t = Text.trimEnd t ++ b := by
  refine ⟨(t.reverse.takeWhile Text.isBlank).reverse, ?_, ?_⟩
  · intro c hc
    exact List.all_eq_true.mp (List.all_takeWhile (l := t.reverse)) c (List.mem_reverse.mp hc)
  · rw [Text.trimEnd, ← List.reverse_append, List.takeWhile_append_dropWhile, List.reverse_reverse]

theorem trimEnd_eq_nil_or_concat (t : Text) :
    Text.trimEnd t = [] ∨ ∃ u c, Text.trimEnd t = u ++ [c] ∧ ¬ Text.isBlank c := by
  rcases h : t.reverse.dropWhile Text.isBlank with _ | ⟨c, u⟩
  · exact .inl (by simp [Text.trimEnd, h])
  · refine .inr ⟨u.reverse, c, by simp [Text.trimEnd, h], fun hc => ?_⟩
    have := List.head?_dropWhile_not Text.isBlank t.reverse
    simp [h, hc] at this

/-- A text of separator characters that does not end in a blank is a separator behind a `;`. -/
theorem isSeparator_cons_trimEnd (t : Text) (h : ∀ c ∈ t, inSeparator c) :
    IsSeparator (';' :: Text.trimEnd t) := by
  induction hn : t.length using Nat.strongRecOn generalizing t with
  | ind n ih =>
    rcases trimEnd_eq_nil_or_concat t with hnil | ⟨u, c, hu, hc⟩
    · rw [hnil]
      exact .single
    obtain ⟨b, -, hb⟩ := trimEnd_append_blank t
    rw [hu] at hb
    have hall : ∀ d ∈ u, inSeparator d := fun d hd => h d (by rw [hb]; simp [hd])
    have hlast : c = ';' := by
      have := h c (by rw [hb]; simp)
      simpa [inSeparator, hc] using this
    obtain ⟨v, hv, hvu⟩ := trimEnd_append_blank u
    have hshort : u.length < n := by rw [← hn, hb]; simp
    have := IsSeparator.more (ih u.length hshort u hall rfl) hv
    rw [hu, hlast]
    rw [List.cons_append, ← hvu] at this
    exact this

theorem separator?_isSeparator {t m : Text} (h : separator? t = some m) : IsSeparator m := by
  unfold separator? at h
  split at h
  case h_1 t =>
    injection h with h
    exact h ▸ isSeparator_cons_trimEnd _ (List.all_eq_true.mp List.all_takeWhile)
  case h_2 => contradiction

theorem IsSeparator.eq_cons {n : Text} (hn : IsSeparator n) :
    ∃ t, n = ';' :: t ∧ (∀ c ∈ t, inSeparator c) ∧ (t = [] ∨ ∃ u, t = u ++ [';']) := by
  induction hn with
  | single => exact ⟨[], rfl, by simp, .inl rfl⟩
  | @more s b hs hb ih =>
    obtain ⟨t, rfl, ht, -⟩ := ih
    refine ⟨t ++ b ++ [';'], by simp, ?_, .inr ⟨t ++ b, rfl⟩⟩
    intro c hc
    simp only [List.mem_append, List.mem_singleton] at hc
    rcases hc with (hc | hc) | rfl
    · exact ht c hc
    · simp [inSeparator, hb c hc]
    · rfl

/-- What a text of separator characters that ends in `;` adds is not trimmed. -/
theorem length_le_trimEnd_append {t : Text} (ht : t = [] ∨ ∃ u, t = u ++ [';']) (r : Text) :
    t.length ≤ (Text.trimEnd (t ++ r)).length := by
  rcases ht with rfl | ⟨u, rfl⟩
  · simp
  obtain ⟨b, hb, hr⟩ := trimEnd_append_blank (u ++ [';'] ++ r)
  refine Nat.le_of_not_lt fun hlt => ?_
  -- Otherwise the last `;` of `t` lies among the blanks at the end.
  have hlen := congrArg List.length hr
  simp only [List.length_append, List.length_singleton] at hlen hlt
  have hmem : (u ++ [';'] ++ r)[u.length]? = some ';' := by simp
  rw [hr, List.getElem?_append_right (by omega)] at hmem
  exact absurd (hb _ (List.mem_of_getElem? hmem)) (by decide)

theorem exists_separator? {n : Text} (hn : IsSeparator n) (r : Text) :
    ∃ m, separator? (n ++ r) = some m ∧ n.length ≤ m.length := by
  obtain ⟨t, rfl, ht, hend⟩ := hn.eq_cons
  refine ⟨';' :: Text.trimEnd ((t ++ r).takeWhile inSeparator), rfl, ?_⟩
  rw [List.takeWhile_append_of_pos ht]
  exact Nat.succ_le_succ (length_le_trimEnd_append hend _)

/-! ### Symbols -/

theorem exists_longestSymbol? {symbols : List Text} {n t : Text} (hn : n ∈ symbols)
    (hp : n <+: t) : ∃ m, longestSymbol? symbols t = some m ∧ n.length ≤ m.length := by
  induction symbols with
  | nil => cases hn
  | cons s symbols ih =>
    rw [longestSymbol?]
    rcases List.mem_cons.mp hn with rfl | hn
    · rw [if_pos (List.isPrefixOf_iff_prefix.mpr hp)]
      rcases longestSymbol? symbols t with _ | longer
      · exact ⟨n, rfl, Nat.le_refl _⟩
      · dsimp only
        split
        · exact ⟨longer, rfl, by omega⟩
        · exact ⟨n, rfl, Nat.le_refl _⟩
    · obtain ⟨m, hm, hle⟩ := ih hn
      rw [hm]
      dsimp only
      split
      · split
        · exact ⟨m, rfl, hle⟩
        · exact ⟨s, rfl, by omega⟩
      · exact ⟨m, rfl, hle⟩

end Token

namespace TokenKind

open Token

theorem longest?_language {k : TokenKind} {t m : Text} (h : k.longest? t = some m) :
    k.Language m := by
  cases k with
  | blank =>
    simp only [longest?, blank?] at h
    split at h
    · contradiction
    · injection h with h
      subst h
      exact ⟨‹_›, List.all_eq_true.mp List.all_takeWhile⟩
  | number => exact numeral?_isNumeral h
  | name => exact name?_isName h
  | openParen | closeParen =>
    simp only [longest?, char?] at h
    split at h
    · split at h
      · exact (Option.some.inj h).symm
      · contradiction
    · contradiction
  | separator => exact separator?_isSeparator h
  | beforeOperand | afterVariable | operator => exact longestSymbol?_mem h

/-- No token at the start of a text is longer than the one that is found. -/
theorem exists_longest? {k : TokenKind} {t n : Text} (hp : n <+: t) (hn : k.Language n) :
    ∃ m, k.longest? t = some m ∧ n.length ≤ m.length := by
  obtain ⟨r, rfl⟩ := hp
  cases k with
  | blank =>
    have hlead : Text.leadingBlank (n ++ r) = n ++ Text.leadingBlank r :=
      List.takeWhile_append_of_pos hn.2
    refine ⟨n ++ Text.leadingBlank r, ?_, by simp⟩
    simp [longest?, blank?, hlead, hn.1]
  | number => exact exists_numeral? hn r
  | name => exact exists_name? hn r
  | openParen | closeParen =>
    simp only [Language] at hn
    subst hn
    exact ⟨_, rfl, Nat.le_refl _⟩
  | separator => exact exists_separator? hn r
  | beforeOperand | afterVariable | operator =>
    exact exists_longestSymbol? hn (List.prefix_append n r)

theorem isLongest_of_longest? {k : TokenKind} {t m : Text} (h : k.longest? t = some m) :
    k.IsLongest t m where
  isPrefix := longest?_isPrefix h
  language := longest?_language h
  longest n hp hn := by
    obtain ⟨m', hm', hle⟩ := exists_longest? hp hn
    rwa [Option.some.inj (h.symm.trans hm')]

theorem longest?_eq_some_iff {k : TokenKind} {t m : Text} :
    k.longest? t = some m ↔ k.IsLongest t m := by
  refine ⟨isLongest_of_longest?, fun h => ?_⟩
  obtain ⟨n, hn, -⟩ := exists_longest? h.isPrefix h.language
  rw [hn, (isLongest_of_longest? hn).unique h]

theorem language_symbol (op : Operator) : operator.Language op.symbol :=
  List.mem_map_of_mem (Operator.mem_all op)

theorem longest?_self {k : TokenKind} {m : Text} (h : k.Language m) : k.longest? m = some m :=
  longest?_eq_some_iff.mpr ⟨List.prefix_rfl, h, fun _ hp _ => hp.length_le⟩

/-- Where the same tokens of a kind begin, the same one is the longest. -/
theorem longest?_congr {k : TokenKind} {t u : Text}
    (same : ∀ m, k.Language m → (m <+: t ↔ m <+: u)) : k.longest? t = k.longest? u := by
  refine Option.ext fun m => ?_
  rw [longest?_eq_some_iff, longest?_eq_some_iff]
  constructor
  · intro h
    exact ⟨(same m h.language).mp h.isPrefix, h.language,
      fun n front hn => h.longest n ((same n hn).mpr front) hn⟩
  · intro h
    exact ⟨(same m h.language).mpr h.isPrefix, h.language,
      fun n front hn => h.longest n ((same n hn).mp front) hn⟩

end TokenKind

end Calculator
