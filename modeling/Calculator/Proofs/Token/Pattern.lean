import Calculator.Proofs.Token.Longest
import Calculator.Proofs.Token.Position
import Calculator.Token.Pattern

/-!
# Patterns find the longest symbol

The first of the sorted symbols that a text begins with is the longest one of them
(`Token.find?_alternatives`), so that what the pattern of some symbols finds does not depend on
their order or repetition (`Regex.find?_symbolPattern`).
-/

namespace Calculator

namespace Token

variable {symbols : List Text} {t m n : Text}

/-! ### Symbols in order -/

theorem precedes_trans (a b c : Text) (hab : precedes a b) (hbc : precedes b c) : precedes a c := by
  simp only [precedes, decide_eq_true_eq] at hab hbc ⊢
  rcases hab with longer | ⟨same, le⟩ <;> rcases hbc with longer' | ⟨same', le'⟩
  · exact .inl (by omega)
  · exact .inl (by omega)
  · exact .inl (by omega)
  · exact .inr ⟨by omega, le_trans le le'⟩

theorem precedes_total (a b : Text) : precedes a b || precedes b a := by
  simp only [precedes, Bool.or_eq_true, decide_eq_true_eq]
  rcases Nat.lt_trichotomy (Text.extent a) (Text.extent b) with shorter | same | longer
  · exact .inr (.inl shorter)
  · exact (le_total a b).imp (fun le => .inr ⟨same, le⟩) fun le => .inr ⟨same.symm, le⟩
  · exact .inl (.inl longer)

theorem mem_destutter {l : List Text} : m ∈ l.destutter (· ≠ ·) ↔ m ∈ l := by
  refine ⟨fun h => (List.destutter_sublist _ l).subset h, fun h => ?_⟩
  cases l with
  | nil => exact h
  | cons a l =>
    rw [List.destutter_cons']
    induction l generalizing a with
    | nil => exact h
    | cons b l ih =>
      rw [List.destutter']
      split
      case isTrue =>
        rcases List.mem_cons.mp h with rfl | h
        · exact List.mem_cons_self
        · exact List.mem_cons_of_mem _ (ih b h)
      case isFalse same =>
        obtain rfl : a = b := not_not.mp same
        exact ih a (by simpa using h)

theorem mem_alternatives : m ∈ alternatives symbols ↔ m ∈ symbols :=
  mem_destutter.trans (List.mergeSort_perm symbols precedes).mem_iff

theorem pairwise_alternatives (symbols : List Text) :
    (alternatives symbols).Pairwise fun a b => Text.extent b ≤ Text.extent a := by
  have sorted := List.pairwise_mergeSort precedes_trans precedes_total symbols
  refine (sorted.sublist (List.destutter_sublist _ _)).imp fun {a b} before => ?_
  simp only [precedes, decide_eq_true_eq] at before
  omega

/-! ### The longest symbol -/

theorem IsLongestOf.unique (hm : IsLongestOf symbols t m) (hn : IsLongestOf symbols t n) : m = n :=
  (List.prefix_of_prefix_length_le hm.isPrefix hn.isPrefix
    (hn.longest m hm.mem hm.isPrefix)).eq_of_length
    (Nat.le_antisymm (hn.longest m hm.mem hm.isPrefix) (hm.longest n hn.mem hn.isPrefix))

/-- What finds nothing but the longest symbol, and something wherever a symbol begins. -/
theorem eq_some_iff_isLongestOf {x : Option Text} (sound : ∀ m, x = some m → IsLongestOf symbols t m)
    (complete : ∀ m ∈ symbols, m <+: t → x ≠ none) : x = some m ↔ IsLongestOf symbols t m := by
  refine ⟨sound m, fun h => ?_⟩
  cases hx : x with
  | none => exact absurd hx (complete m h.mem h.isPrefix)
  | some n => rw [(sound n hx).unique h]

theorem longestSymbol?_eq_some_iff : longestSymbol? symbols t = some m ↔ IsLongestOf symbols t m := by
  refine eq_some_iff_isLongestOf (fun m h => ?_) fun m hm ⟨r, hr⟩ => ?_
  · refine ⟨longestSymbol?_mem h, longestSymbol?_isPrefix h, fun n hn begins => ?_⟩
    obtain ⟨m', hm', le⟩ := exists_longestSymbol? hn begins
    rwa [Option.some.inj (h.symm.trans hm')]
  · obtain ⟨m', hm', -⟩ := exists_longestSymbol? hm ⟨r, hr⟩
    rw [hm']
    exact Option.some_ne_none m'

/-- Neither the order of the symbols nor their number matters. -/
theorem longestSymbol?_congr {symbols' : List Text} (same : ∀ m, m ∈ symbols' ↔ m ∈ symbols) :
    longestSymbol? symbols' t = longestSymbol? symbols t := by
  refine Option.ext fun m => ?_
  rw [longestSymbol?_eq_some_iff, longestSymbol?_eq_some_iff]
  constructor
  · intro h
    exact ⟨(same m).mp h.mem, h.isPrefix, fun n hn => h.longest n ((same n).mpr hn)⟩
  · intro h
    exact ⟨(same m).mpr h.mem, h.isPrefix, fun n hn => h.longest n ((same n).mp hn)⟩

theorem find?_alternatives : (alternatives symbols).find? (·.isPrefixOf t) = some m ↔
    IsLongestOf symbols t m := by
  refine eq_some_iff_isLongestOf (fun m found => ?_) fun m hm begins missing => ?_
  · obtain ⟨front, earlier, later, whole, missed⟩ := List.find?_eq_some_iff_append.mp found
    have front := List.isPrefixOf_iff_prefix.mp front
    refine ⟨mem_alternatives.mp (List.mem_of_find?_eq_some found), front, fun n hn begins => ?_⟩
    have sorted := pairwise_alternatives symbols
    have place := mem_alternatives.mpr hn
    rw [whole] at sorted place
    -- None of the alternatives before `m` matches, and none behind it is longer.
    rcases List.mem_append.mp place with early | late
    · have := missed n early
      simp [List.isPrefixOf_iff_prefix.mpr begins] at this
    · rcases List.mem_cons.mp late with rfl | late
      · exact Nat.le_refl _
      · have shorter := List.rel_of_pairwise_cons (List.pairwise_append.mp sorted).2.1 late
        exact (Text.isPrefix_of_extent_le begins front shorter).length_le
  · have none := List.find?_eq_none.mp missing m (mem_alternatives.mpr hm)
    exact none (List.isPrefixOf_iff_prefix.mpr begins)

theorem find?_alternatives_eq (symbols : List Text) (t : Text) :
    (alternatives symbols).find? (·.isPrefixOf t) = longestSymbol? symbols t :=
  Option.ext fun _ => find?_alternatives.trans longestSymbol?_eq_some_iff.symm

end Token

namespace Regex

variable {R : Regex} {symbols : List Text}

/-! ### What an alternation finds -/

theorem Lawful.find?_alternation (laws : R.Lawful) (nonempty : symbols ≠ []) :
    ∃ p, R.compile? (anchored (R.alternation symbols)) = some p ∧
      ∀ t, R.find? p t = (symbols.find? (·.isPrefixOf t)).map (0, ·) := by
  induction symbols with
  | nil => exact absurd rfl nonempty
  | cons s rest ih =>
    obtain ⟨p, compiled, finds⟩ := laws.literal s
    have first (t : Text) : R.find? p t = ([s].find? (·.isPrefixOf t)).map (0, ·) := by
      rw [finds, List.find?_singleton]
      simp only [List.isPrefixOf_iff_prefix]
      split <;> rfl
    by_cases last : rest = []
    · subst last
      have alone : R.alternation [s] = R.escape s := List.intercalate_singleton
      exact ⟨p, by rwa [alone], first⟩
    · obtain ⟨q, compiled', finds'⟩ := ih last
      obtain ⟨r, compiled'', finds''⟩ := laws.leftmost s rest p q last compiled compiled'
      refine ⟨r, compiled'', fun t => ?_⟩
      rw [finds'', first, finds', ← Option.map_or, ← List.find?_append]
      rfl

theorem Lawful.find?_symbolPattern_eq (laws : R.Lawful) (nonempty : symbols ≠ []) :
    ∃ p, R.symbolPattern? symbols = some p ∧
      ∀ t, R.find? p t = (Token.longestSymbol? symbols t).map (0, ·) := by
  obtain ⟨m, hm⟩ := List.exists_mem_of_ne_nil symbols nonempty
  have nonempty' : Token.alternatives symbols ≠ [] :=
    List.ne_nil_of_mem (Token.mem_alternatives.mpr hm)
  obtain ⟨p, compiled, finds⟩ := laws.find?_alternation nonempty'
  exact ⟨p, compiled, fun t => by rw [finds, Token.find?_alternatives_eq]⟩

/-- The pattern of some symbols finds one of them wherever a text begins with one, at the start of the
text, and the longest one; what it finds is what a search through the symbols finds in any order and
with any repetitions. -/
theorem find?_symbolPattern (laws : R.Lawful) (nonempty : symbols ≠ []) :
    ∃ p, R.symbolPattern? symbols = some p ∧
      (∀ t, (R.find? p t).isSome ↔ ∃ n ∈ symbols, n <+: t) ∧
      (∀ t start m, R.find? p t = some (start, m) → start = 0 ∧ Token.IsLongestOf symbols t m) ∧
      (∀ t, R.find? p t = (Token.longestSymbol? symbols t).map (0, ·)) ∧
      ∀ symbols' q, (∀ m, m ∈ symbols' ↔ m ∈ symbols) → R.symbolPattern? symbols' = some q →
        ∀ t, R.find? q t = R.find? p t := by
  obtain ⟨p, compiled, finds⟩ := laws.find?_symbolPattern_eq nonempty
  refine ⟨p, compiled, fun t => ?_, fun t start m found => ?_, finds,
    fun symbols' q same compiled' t => ?_⟩
  · rw [finds, Option.isSome_map]
    constructor
    · intro found
      obtain ⟨m, hm⟩ := Option.isSome_iff_exists.mp found
      have longest := Token.longestSymbol?_eq_some_iff.mp hm
      exact ⟨m, longest.mem, longest.isPrefix⟩
    · rintro ⟨n, hn, begins⟩
      obtain ⟨m, hm, -⟩ := Token.exists_longestSymbol? hn begins
      rw [hm]
      rfl
  · rw [finds] at found
    obtain ⟨m', hm, pair⟩ := Option.map_eq_some_iff.mp found
    obtain ⟨rfl, rfl⟩ := Prod.mk.inj pair
    exact ⟨rfl, Token.longestSymbol?_eq_some_iff.mp hm⟩
  · obtain ⟨m, hm⟩ := List.exists_mem_of_ne_nil symbols nonempty
    have nonempty' : symbols' ≠ [] := List.ne_nil_of_mem ((same m).mpr hm)
    obtain ⟨q', compiled'', finds'⟩ := laws.find?_symbolPattern_eq nonempty'
    obtain rfl := Option.some.inj (compiled'.symm.trans compiled'')
    rw [finds, finds', Token.longestSymbol?_congr same]

/-! ### A library with these rules -/

theorem readAlternatives_escape (s r : Text) : readAlternatives (alternations.escape s ++ r) =
    (s ++ (readAlternatives r).1, (readAlternatives r).2) := by
  unfold alternations
  dsimp only
  induction s with
  | nil => rfl
  | cons c s ih =>
    rw [List.flatMap_cons]
    split
    case isTrue => simp [readAlternatives, ih]
    case isFalse plain =>
      have other : c ≠ '|' ∧ c ≠ '\\' := by
        constructor <;> rintro rfl <;> exact plain rfl
      rw [List.append_assoc, List.singleton_append, readAlternatives, ih]
      · rfl
      · exact other.1
      · exact fun d r h => absurd h other.2

theorem readAlternatives_single (s : Text) : readAlternatives (alternations.escape s) = (s, []) := by
  simpa [readAlternatives] using readAlternatives_escape s []

theorem readAlternatives_alternation (s : Text) (rest : List Text) :
    readAlternatives (alternations.alternation (s :: rest)) = (s, rest) := by
  induction rest generalizing s with
  | nil =>
    rw [alternation, List.map_singleton, List.intercalate_singleton]
    exact readAlternatives_single s
  | cons a rest ih =>
    have first := readAlternatives_escape s ('|' :: alternations.alternation (a :: rest))
    rw [readAlternatives, ih a, List.append_nil] at first
    simpa [alternation, List.intercalate_cons_cons] using first

theorem compile?_anchored (e : Text) :
    alternations.compile? (anchored e) = some (readAlternatives e) := by
  have inner : ((anchored e).drop 4).dropLast = e := by simp [anchored]
  simp [alternations, inner]

theorem lawful_alternations : alternations.Lawful where
  literal s := by
    refine ⟨(s, []), (compile?_anchored _).trans (congrArg some (readAlternatives_single s)), ?_⟩
    intro t
    by_cases h : s <+: t <;> simp [alternations, h]
  leftmost s symbols p q nonempty compiled compiled' := by
    obtain ⟨a, rest, rfl⟩ := List.exists_cons_of_ne_nil nonempty
    rw [compile?_anchored, readAlternatives_single] at compiled
    rw [compile?_anchored, readAlternatives_alternation] at compiled'
    obtain rfl := Option.some.inj compiled
    obtain rfl := Option.some.inj compiled'
    have read := congrArg some (readAlternatives_alternation s (a :: rest))
    refine ⟨(s, a :: rest), (compile?_anchored _).trans read, fun t => ?_⟩
    show ((s :: a :: rest).find? _).map _ = (([s].find? _).map _).or (((a :: rest).find? _).map _)
    rw [← Option.map_or, ← List.find?_append]
    rfl

/-- Symbols that are prefixes of one another, one of them twice and one of them empty. -/
theorem find?_symbolPattern_nested :
    let symbols := [">".toList, "|>".toList, ">>".toList, [], ">>=".toList, ">>".toList]
    alternations.Lawful ∧ symbols ≠ [] ∧
    ∃ p, alternations.symbolPattern? symbols = some p ∧
      (∀ t, (alternations.find? p t).isSome ↔ ∃ n ∈ symbols, n <+: t) ∧
      (∀ t start m, alternations.find? p t = some (start, m) →
        start = 0 ∧ Token.IsLongestOf symbols t m) ∧
      (∀ t, alternations.find? p t = (Token.longestSymbol? symbols t).map (0, ·)) ∧
      ∀ symbols' q, (∀ m, m ∈ symbols' ↔ m ∈ symbols) →
        alternations.symbolPattern? symbols' = some q →
        ∀ t, alternations.find? q t = alternations.find? p t :=
  ⟨lawful_alternations, List.cons_ne_nil _ _,
    find?_symbolPattern lawful_alternations (List.cons_ne_nil _ _)⟩

end Regex

end Calculator
