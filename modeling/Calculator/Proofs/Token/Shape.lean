import Calculator.Proofs.Token.Blank
import Calculator.Token.Shape

/-!
# Shapes find the longest token

The first way in which the expression of a kind matches a text is the longest token of the kind there
(`TokenKind.find?_shape`). In most expressions nothing is ever given back: a repetition cannot fail,
and what it passes ends where no further round is possible (`Shape.rest?_many`). Only the blanks in
front of a further `;` are given back where there is none.
-/

namespace Calculator

theorem Text.drop_append_cons (s : Text) (c : Char) (m t : Text) :
    (s ++ c :: t).drop (s ++ c :: m).length = t.drop m.length := by
  rw [List.length_append, ← List.drop_drop, List.drop_left, List.length_cons, List.drop_succ_cons]

namespace Shape

open Text (drop_length_takeWhile drop_append_cons)

variable {a b e : Shape} {p q : Char → Bool} {t m : Text}

/-! ### All ways -/

theorem rests_many_ne_nil (a : Shape) (t : Text) : (many a).rests t ≠ [] := by
  rw [rests, afterRounds]
  exact List.append_ne_nil_of_right_ne_nil _ (List.cons_ne_nil t [])

theorem rests_many (shorter : ∀ u ∈ a.rests t, u.length < t.length) :
    (many a).rests t = (a.rests t).flatMap (many a).rests ++ [t] := by
  rw [rests, afterRounds]
  exact congrArg (· ++ [t]) (List.flatMap_congr fun u hu => if_pos (shorter u hu))

theorem rests_char (p : Char → Bool) (c : Char) (t : Text) :
    (char p).rests (c :: t) = if p c then [t] else [] := rfl

theorem shorter_char (p : Char → Bool) (t : Text) :
    ∀ u ∈ (char p).rests t, u.length < t.length := by
  intro u hu
  cases t with
  | nil => cases hu
  | cons c t =>
    rw [rests_char] at hu
    split at hu
    · rw [List.mem_singleton.mp hu]
      exact Nat.lt_succ_self _
    · cases hu

theorem rests_many_char (p : Char → Bool) (c : Char) (t : Text) : (many (char p)).rests (c :: t) =
    (if p c then (many (char p)).rests t else []) ++ [c :: t] := by
  rw [rests_many (shorter_char p _), rests_char]
  split <;> simp

theorem length_le_of_mem_rests_many_char {u : Text} (h : u ∈ (many (char p)).rests t) :
    u.length ≤ t.length := by
  induction t with
  | nil =>
    rw [rests_many (shorter_char p [])] at h
    exact Nat.le_of_eq (congrArg List.length (List.mem_singleton.mp h))
  | cons c t ih =>
    rw [rests_many_char] at h
    rcases List.mem_append.mp h with more | last
    · split at more
      · exact Nat.le_succ_of_le (ih more)
      · cases more
    · rw [List.mem_singleton.mp last]

/-! ### The first way -/

theorem rest?_char (p : Char → Bool) (c : Char) (t : Text) :
    (char p).rest? (c :: t) = if p c then some t else none := by
  rw [rest?, rests_char]
  split <;> rfl

theorem rest?_either (a b : Shape) (t : Text) :
    (either a b).rest? t = (a.rest? t).or (b.rest? t) :=
  List.head?_append

theorem rest?_optional (a : Shape) (t : Text) : (optional a).rest? t = (a.rest? t).or (some t) :=
  List.head?_append

theorem rest?_seq (a b : Shape) (t : Text) :
    (seq a b).rest? t = (a.rests t).findSome? b.rest? :=
  List.head?_flatMap

/-- If the second part never fails, only the first way of the first part is tried. -/
theorem rest?_seq_of_total (total : ∀ u, (b.rest? u).isSome) (t : Text) :
    (seq a b).rest? t = (a.rest? t).bind b.rest? := by
  rw [rest?_seq, rest?]
  cases a.rests t with
  | nil => rfl
  | cons u us =>
    obtain ⟨v, hv⟩ := Option.isSome_iff_exists.mp (total u)
    simp [hv]

theorem rest?_char_seq (p : Char → Bool) (b : Shape) (t : Text) :
    (seq (char p) b).rest? t = ((char p).rest? t).bind b.rest? := by
  rw [rest?_seq]
  cases t with
  | nil => rfl
  | cons c t =>
    rw [rest?_char, rests_char]
    split <;> simp

theorem total_optional (a : Shape) (t : Text) : ((optional a).rest? t).isSome := by
  rw [rest?_optional]
  cases a.rest? t <;> rfl

theorem total_many (a : Shape) (t : Text) : ((many a).rest? t).isSome :=
  List.isSome_head?.mpr (rests_many_ne_nil a t)

/-- Rounds are made as long as they go, each in its first way. -/
theorem rest?_many (shorter : ∀ u ∈ a.rests t, u.length < t.length) :
    (many a).rest? t = ((a.rest? t).bind (many a).rest?).or (some t) := by
  rw [← rest?_seq_of_total (total_many a)]
  exact (congrArg List.head? (rests_many shorter)).trans List.head?_append

theorem rest?_many_char (p : Char → Bool) (t : Text) :
    (many (char p)).rest? t = some (t.dropWhile p) := by
  induction t with
  | nil => rw [rest?_many (shorter_char p [])]; rfl
  | cons c t ih =>
    rw [rest?_many (shorter_char p _), rest?_char]
    by_cases h : p c <;> simp [h, ih]

theorem rest?_oneOrMore_char (p : Char → Bool) (t : Text) : (oneOrMore (char p)).rest? t =
    if t.takeWhile p = [] then none else some (t.dropWhile p) := by
  rw [oneOrMore, rest?_char_seq]
  cases t with
  | nil => rfl
  | cons c t =>
    rw [rest?_char]
    by_cases h : p c <;> simp [h, rest?_many_char]

/-- No round is given back for a character that the rounds pass. -/
theorem rest?_many_char_seq_char (apart : ∀ c, p c → ¬ q c) (t : Text) :
    (seq (many (char p)) (char q)).rest? t = (char q).rest? (t.dropWhile p) := by
  rw [rest?_seq]
  induction t with
  | nil =>
    rw [rests_many (shorter_char p [])]
    rfl
  | cons c t ih =>
    rw [rests_many_char]
    by_cases h : p c
    · simp [h, ih, rest?_char, apart c h, List.findSome?_append]
    · simp [h]

/-! ### Tokens of one character, names and blanks -/

theorem rest?_just_cons (c : Char) (t : Text) : (just c).rest? (c :: t) = some t := by
  simp [just, rest?_char]

theorem rest?_just_of_ne {c : Char} (other : ∀ r, t ≠ c :: r) : (just c).rest? t = none := by
  cases t with
  | nil => rfl
  | cons d t =>
    have ne : c ≠ d := fun same => other t (same ▸ rfl)
    simp [just, rest?_char, ne]

theorem rest?_char? (c : Char) (t : Text) :
    (just c).rest? t = (Token.char? c t).map fun m => t.drop m.length := by
  cases t with
  | nil => rfl
  | cons d t =>
    rw [just, rest?_char, Token.char?]
    by_cases h : c = d <;> simp [h]

theorem rest?_blank (t : Text) :
    blank.rest? t = (Token.blank? t).map fun m => t.drop m.length := by
  rw [blank, rest?_oneOrMore_char, Token.blank?, Text.leadingBlank]
  split
  case isTrue => rfl
  case isFalse => rw [Option.map_some, drop_length_takeWhile]

theorem rest?_name (t : Text) : name.rest? t = (Token.name? t).map fun m => t.drop m.length := by
  rw [name, rest?_char_seq]
  cases t with
  | nil => rfl
  | cons c t =>
    rw [rest?_char, Token.name?]
    split
    case isTrue => simp [rest?_many_char, drop_length_takeWhile]
    case isFalse => rfl

/-! ### Numerals -/

theorem rest?_digits (t : Text) : (oneOrMore digit).rest? t =
    if Token.digits t = [] then none else some (t.dropWhile Char.isDigit) :=
  rest?_oneOrMore_char Char.isDigit t

theorem rest?_fraction_point (r : Text) :
    fraction.rest? ('.' :: r) = some (r.dropWhile Char.isDigit) := by
  rw [fraction, rest?_seq_of_total (total_many digit), rest?_optional, rest?_just_cons]
  exact rest?_many_char Char.isDigit r

theorem rest?_fraction_of_ne (other : ∀ r, t ≠ '.' :: r) :
    fraction.rest? t = some (t.dropWhile Char.isDigit) := by
  rw [fraction, rest?_seq_of_total (total_many digit), rest?_optional, rest?_just_of_ne other]
  exact rest?_many_char Char.isDigit t

theorem total_fraction (t : Text) : (fraction.rest? t).isSome := by
  by_cases point : ∃ r, t = '.' :: r
  · obtain ⟨r, rfl⟩ := point
    rw [rest?_fraction_point]
    rfl
  · rw [rest?_fraction_of_ne (not_exists.mp point)]
    rfl

/-- The second alternative is tried where there is no digit in front. -/
theorem rest?_significand_eq (t : Text) : significand.rest? t =
    if Token.digits t = [] then ((just '.').rest? t).bind (oneOrMore digit).rest?
    else fraction.rest? (t.dropWhile Char.isDigit) := by
  have second : (seq (just '.') (oneOrMore digit)).rest? t = _ := rest?_char_seq _ _ t
  rw [significand, rest?_either, rest?_seq_of_total total_fraction, rest?_digits, second]
  split
  case isTrue => rfl
  case isFalse =>
    obtain ⟨u, hu⟩ := Option.isSome_iff_exists.mp (total_fraction (t.dropWhile Char.isDigit))
    rw [Option.bind_some, hu, Option.some_or]

theorem rest?_significand_pointed {d r : Text} (digits : Token.AllDigits d)
    (nonempty : d ≠ [] ∨ Token.digits r ≠ []) :
    significand.rest? (d ++ '.' :: r) = some (r.dropWhile Char.isDigit) := by
  have front : Token.digits (d ++ '.' :: r) = d := by
    rw [Token.digits_append digits]
    exact List.append_nil d
  have left : (d ++ '.' :: r).dropWhile Char.isDigit = '.' :: r := Token.dropDigits_append digits _
  rw [rest?_significand_eq, front, left]
  split
  case isTrue empty =>
    have further : Token.digits r ≠ [] := nonempty.resolve_left (· empty)
    rw [empty, List.nil_append, rest?_just_cons, Option.bind_some, rest?_digits, if_neg further]
  case isFalse => exact rest?_fraction_point r

theorem rest?_significand (t : Text) : significand.rest? t =
    if Token.significand t = [] then none else some (t.drop (Token.significand t).length) := by
  have split : Token.digits t ++ t.dropWhile Char.isDigit = t := List.takeWhile_append_dropWhile
  have digits := Token.allDigits_digits t
  by_cases point : ∃ r, t.dropWhile Char.isDigit = '.' :: r
  · obtain ⟨r, hr⟩ := point
    rw [hr] at split
    by_cases nonempty : Token.digits t ≠ [] ∨ Token.digits r ≠ []
    · rw [← split, rest?_significand_pointed digits nonempty,
        Token.significand_pointed digits nonempty, if_neg (by simp), drop_append_cons, Token.digits,
        drop_length_takeWhile]
    · obtain ⟨empty, empty'⟩ : Token.digits t = [] ∧ Token.digits r = [] := by simpa using nonempty
      have alone : Token.significand t = [] := by simp [Token.significand, hr, empty, empty']
      rw [empty, List.nil_append] at split
      rw [rest?_significand_eq, if_pos empty, if_pos alone, ← split, rest?_just_cons,
        Option.bind_some, rest?_digits, if_pos empty']
  · have whole := Token.significand_whole (not_exists.mp point)
    rw [rest?_significand_eq, whole]
    by_cases empty : Token.digits t = []
    · rw [empty, List.nil_append] at split
      rw [split] at point
      rw [if_pos empty, if_pos empty, rest?_just_of_ne (not_exists.mp point), Option.bind_none]
    · rw [if_neg empty, if_neg empty, rest?_fraction_of_ne (not_exists.mp point),
        List.dropWhile_idempotent, Token.digits, drop_length_takeWhile]

theorem rest?_scale (t : Text) :
    (optional scale).rest? t = some (t.drop (Token.scale t).length) := by
  rw [rest?_optional, scale, rest?_char_seq]
  cases t with
  | nil => rfl
  | cons c t =>
    have left : t.drop (Token.digits t).length = _ := drop_length_takeWhile Char.isDigit t
    rw [rest?_char, Token.scale]
    by_cases mark : c = 'e' ∨ c = 'E' <;> by_cases empty : Token.digits t = [] <;>
      simp [mark, empty, rest?_digits, left]

theorem rest?_number (t : Text) :
    number.rest? t = (Token.numeral? t).map fun m => t.drop m.length := by
  rw [number, rest?_seq_of_total (total_optional scale), rest?_significand, Token.numeral?]
  split
  case isTrue => rfl
  case isFalse => simp [rest?_scale, List.drop_drop]

/-! ### Separators -/

theorem shorter_spacedSemicolon (t : Text) : ∀ u ∈ spacedSemicolon.rests t, u.length < t.length := by
  intro u hu
  obtain ⟨v, hv, hu⟩ := List.mem_flatMap.mp hu
  exact Nat.lt_of_lt_of_le (shorter_char _ v u hu) (length_le_of_mem_rests_many_char hv)

theorem rest?_spacedSemicolon (t : Text) :
    spacedSemicolon.rest? t = (just ';').rest? (Text.dropBlank t) := by
  refine rest?_many_char_seq_char (fun c blank same => ?_) t
  rw [← eq_of_beq same] at blank
  cases blank

theorem rest?_separators (t : Text) : (many spacedSemicolon).rest? t =
    some (t.drop (Text.trimEnd (t.takeWhile Token.inSeparator)).length) := by
  induction hn : t.length using Nat.strongRecOn generalizing t with
  | ind n ih =>
    have split := Text.leadingBlank_append_dropBlank t
    have blank := Text.allBlank_leadingBlank t
    have inside : ∀ c ∈ Text.leadingBlank t, Token.inSeparator c :=
      fun c hc => by simp [Token.inSeparator, blank c hc]
    rw [rest?_many (shorter_spacedSemicolon t), rest?_spacedSemicolon]
    by_cases more : ∃ r, Text.dropBlank t = ';' :: r
    · obtain ⟨r, hr⟩ := more
      rw [hr] at split
      have shorter : r.length < n := by
        rw [← hn, ← split]
        simp only [List.length_append, List.length_cons]
        omega
      rw [hr, rest?_just_cons, Option.bind_some, ih r.length shorter r rfl, Option.some_or]
      have token : Text.trimEnd (t.takeWhile Token.inSeparator) = Text.leadingBlank t ++
          ';' :: Text.trimEnd (r.takeWhile Token.inSeparator) := by
        conv => lhs; rw [← split, List.takeWhile_append_of_pos inside]
        exact Text.trimEnd_append_cons (by decide) _ _
      have left := drop_append_cons (Text.leadingBlank t) ';'
        (Text.trimEnd (r.takeWhile Token.inSeparator)) r
      rw [token, ← left, split]
    · have last : t.takeWhile Token.inSeparator = Text.leadingBlank t := by
        conv => lhs; rw [← split, List.takeWhile_append_of_pos inside]
        cases hd : Text.dropBlank t with
        | nil => simp
        | cons c r =>
          have other : c ≠ ';' := fun same => more ⟨r, same ▸ hd⟩
          simp [Token.inSeparator, other, Text.not_isBlank_of_dropBlank hd]
      have trimmed : Text.trimEnd (Text.leadingBlank t) = [] :=
        Text.trimEnd_append_of_allBlank blank []
      rw [rest?_just_of_ne (not_exists.mp more), last, trimmed]
      rfl

theorem rest?_separator (t : Text) :
    separator.rest? t = (Token.separator? t).map fun m => t.drop m.length := by
  rw [separator, just, rest?_char_seq]
  cases t with
  | nil => rfl
  | cons c t =>
    rw [rest?_char]
    by_cases h : ';' = c
    · subst h
      exact rest?_separators t
    · simp [Token.separator?, h, Ne.symm h]

/-! ### Expressions of the kinds -/

theorem find?_eq_some (front : m <+: t) (left : e.rest? t = some (t.drop m.length)) :
    e.find? t = some m := by
  obtain ⟨r, rfl⟩ := front
  simp [find?, left]

theorem rest?_shape {k : TokenKind} (h : k.shape? = some e) (t : Text) :
    e.rest? t = (k.longest? t).map fun m => t.drop m.length := by
  cases k <;> cases h
  case blank => exact rest?_blank t
  case number => exact rest?_number t
  case name => exact rest?_name t
  case openParen => exact rest?_char? '(' t
  case closeParen => exact rest?_char? ')' t
  case separator => exact rest?_separator t

theorem find?_eq_longest? {k : TokenKind} (h : k.shape? = some e) (t : Text) :
    e.find? t = k.longest? t := by
  have left := rest?_shape h t
  cases hm : k.longest? t with
  | none => rw [find?, left, hm]; rfl
  | some m =>
    rw [hm] at left
    exact find?_eq_some (TokenKind.longest?_isPrefix hm) left

end Shape

namespace TokenKind

/-- The expression of a kind finds what a cursor passes: a token where the text begins with one, and
then the longest. -/
theorem find?_shape {k : TokenKind} {e : Shape} (h : k.shape? = some e) (t : Text) :
    e.find? t = k.longest? t ∧
      ((∃ m, e.find? t = some m) ↔ ∃ m, m ≠ [] ∧ m <+: t ∧ k.Language m) ∧
      ∀ m, e.find? t = some m ↔ m ≠ [] ∧ m <+: t ∧ k.Language m ∧
        ∀ n, n <+: t → k.Language n → n.length ≤ m.length := by
  have found (m : Text) : e.find? t = some m ↔ m ≠ [] ∧ m <+: t ∧ k.Language m ∧
      ∀ n, n <+: t → k.Language n → n.length ≤ m.length := by
    rw [Shape.find?_eq_longest? h]
    constructor
    · intro hm
      have longest := isLongest_of_longest? hm
      exact ⟨longest?_ne_nil hm, longest.isPrefix, longest.language, longest.longest⟩
    · rintro ⟨-, front, language, longest⟩
      exact longest?_eq_some_iff.mpr ⟨front, language, longest⟩
  refine ⟨Shape.find?_eq_longest? h t, ⟨?_, ?_⟩, found⟩
  · rintro ⟨m, hm⟩
    obtain ⟨nonempty, front, language, -⟩ := (found m).mp hm
    exact ⟨m, nonempty, front, language⟩
  · rintro ⟨m, -, front, language⟩
    obtain ⟨n, hn, -⟩ := exists_longest? front language
    exact ⟨n, (Shape.find?_eq_longest? h t).trans hn⟩

/-- A mark without digits is given back, and the point in front of it is not. -/
theorem find?_shape_given_back : number.shape? = some .number ∧
    Shape.number.find? "1.e+2".toList = some "1.".toList := by
  have same := (find?_shape (k := number) rfl "1.e+2".toList).1
  exact ⟨rfl, same.trans (by decide)⟩

end TokenKind

end Calculator
