import Calculator.Proofs.Text.Cut
import Calculator.Proofs.Token.Position
import Calculator.Text.Line

/-!
# Lines of a text

Every offset of a text is in one of its lines (`Text.exists_lineAt?`), which is told by the line feeds
in front of it (`Text.lineAt?_inverts_lines`). Lines that are written one below the other are the lines
of what is written (`cutAfter_flatMap`).
-/

namespace Calculator

theorem cutAfter_flatMap {α : Type} [DecidableEq α] {separator : α} {ls : List (List α)}
    (outside : ∀ l ∈ ls, separator ∉ l) :
    cutAfter separator (ls.flatMap (· ++ [separator])) = ls.map (· ++ [separator]) := by
  induction ls with
  | nil => rfl
  | cons l ls ih =>
    obtain ⟨first, others⟩ := List.forall_mem_cons.mp outside
    rw [List.flatMap_cons, List.append_assoc, List.singleton_append, cutAfter_append_cons first,
      ih others, List.map_cons]

namespace Text

theorem flatten_rows (t : Text) : t.rows.flatten = t := by
  unfold rows
  split
  case isTrue empty => simp [empty]
  case isFalse => exact flatten_cutAfter '\n' t

theorem rows_ne_nil (t : Text) : t.rows ≠ [] := by
  intro none
  have empty := flatten_rows t
  rw [none] at empty
  simp [rows, ← empty] at none

/-- A line feed ends a line. -/
theorem not_mem_dropLast_of_mem_rows {t line : Text} (h : line ∈ t.rows) : '\n' ∉ line.dropLast := by
  unfold rows at h
  split at h
  case isTrue =>
    rw [List.mem_singleton.mp h]
    exact List.not_mem_nil
  case isFalse => exact ((cutAfter_isCut '\n' t).inside line h).2

theorem upTo_isPrefix (n : Nat) (t : Text) : upTo n t <+: t := by
  fun_induction upTo n t with
  | case1 => exact List.nil_prefix
  | case2 n c t fits ih => exact (List.prefix_append_right_inj [c]).mpr ih
  | case3 => exact List.nil_prefix

theorem extent_upTo_le (n : Nat) (t : Text) : extent (upTo n t) ≤ n := by
  fun_induction upTo n t with
  | case1 => simp
  | case2 n c t fits ih =>
    rw [extent_cons]
    omega
  | case3 => simp

theorem isPrefix_upTo {n : Nat} {s t : Text} (front : s <+: t) (le : extent s ≤ n) :
    s <+: upTo n t := by
  fun_induction upTo n t generalizing s with
  | case1 => exact front
  | case2 n c t fits ih =>
    cases s with
    | nil => exact List.nil_prefix
    | cons d s =>
      obtain ⟨rfl, behind⟩ := List.cons_prefix_cons.mp front
      rw [extent_cons] at le
      exact List.cons_prefix_cons.mpr ⟨rfl, ih behind (by omega)⟩
  | case3 n c t wide =>
    cases s with
    | nil => exact List.nil_prefix
    | cons d s =>
      obtain ⟨rfl, -⟩ := List.cons_prefix_cons.mp front
      rw [extent_cons] at le
      omega

theorem upTo_extent (t : Text) : upTo (extent t) t = t :=
  (upTo_isPrefix _ t).eq_of_length_le (isPrefix_upTo List.prefix_rfl (Nat.le_refl _)).length_le

/-- The search goes through the lines in order, and never past the last one. -/
theorem findLine_split {ls : List Text} (nonempty : ls ≠ []) {n : Nat} (le : n ≤ extent ls.flatten)
    (number : Nat) :
    let p := findLine number ls n
    ∃ earlier later, ls = earlier ++ p.text :: later ∧ p.number = number + earlier.length ∧
      n = extent earlier.flatten + p.offset ∧
      (p.offset < extent p.text ∨ later = [] ∧ p.offset = extent p.text) := by
  fun_induction findLine number ls n with
  | case1 => exact absurd rfl nonempty
  | case2 number line n =>
    have le : n ≤ extent line := by simpa using le
    exact ⟨[], [], rfl, rfl, by simp, by simp only [true_and]; omega⟩
  | case3 number line rest n more inside => exact ⟨[], rest, rfl, rfl, by simp, .inl inside⟩
  | case4 number line rest n more outside ih =>
    rw [List.flatten_cons, extent_append] at le
    obtain ⟨earlier, later, split, count, offset, place⟩ := ih more (by omega)
    refine ⟨line :: earlier, later, ?_, ?_, ?_, place⟩
    · rw [List.cons_append, ← split]
    · rw [count, List.length_cons]
      omega
    · rw [List.flatten_cons, extent_append]
      omega

theorem exists_lineAt? {t : Text} {n : Nat} (le : n ≤ extent t) :
    ∃ p earlier later, t.lineAt? n = some p ∧ p.IsAt t n earlier later := by
  refine ⟨findLine 1 (lines t) n, ?_⟩
  have found : t.lineAt? n = some (findLine 1 (lines t) n) := if_neg (Nat.not_lt.mpr le)
  by_cases empty : t = []
  · subst empty
    obtain rfl : n = 0 := by simpa using le
    exact ⟨[], [], found, rfl, rfl, rfl, .inr ⟨rfl, rfl⟩⟩
  · have rows : rows t = lines t := if_neg empty
    have nonempty : lines t ≠ [] := rows ▸ rows_ne_nil t
    have whole : (lines t).flatten = t := rows ▸ flatten_rows t
    obtain ⟨earlier, later, split, count, offset, place⟩ :=
      findLine_split nonempty (whole.symm ▸ le) 1
    exact ⟨earlier, later, found, rows.trans split, by rw [count, Nat.add_comm], offset, place⟩

end Text

namespace LinePosition.IsAt

variable {t : Text} {n : Nat} {earlier later : List Text} {p : LinePosition}

theorem whole (h : p.IsAt t n earlier later) :
    t = earlier.flatten ++ (p.text ++ later.flatten) := by
  rw [← List.flatten_cons, ← List.flatten_append, ← h.rows, Text.flatten_rows]

theorem text_mem (h : p.IsAt t n earlier later) : p.text ∈ t.rows := by
  simp [h.rows]

/-- The text cut at the offset cuts the line that holds it, and goes on behind the cut unless the line
ends there with the text. -/
theorem exists_cut {front ahead : Text} (h : p.IsAt t n earlier later) (whole : t = front ++ ahead)
    (offset : n = Text.extent front) :
    ∃ before after, p.text = before ++ after ∧ p.offset = Text.extent before ∧
      ahead = after ++ later.flatten ∧ (after = [] → later = []) := by
  have cut : front ++ ahead = earlier.flatten ++ (p.text ++ later.flatten) := whole.symm.trans h.whole
  have reached : Text.extent front = Text.extent earlier.flatten + p.offset :=
    offset.symm.trans h.offset
  obtain ⟨before, rfl⟩ : earlier.flatten <+: front :=
    Text.isPrefix_of_extent_le ⟨_, cut.symm⟩ ⟨_, rfl⟩ (by omega)
  rw [List.append_assoc, List.append_cancel_left_eq] at cut
  rw [Text.extent_append] at reached
  have place : p.offset ≤ Text.extent p.text := by
    rcases h.inside with inside | ⟨-, ended⟩ <;> omega
  obtain ⟨after, line⟩ : before <+: p.text :=
    Text.isPrefix_of_extent_le ⟨_, cut⟩ ⟨_, rfl⟩ (by omega)
  rw [← line, List.append_assoc, List.append_cancel_left_eq] at cut
  refine ⟨before, after, line.symm, by omega, cut, fun none => ?_⟩
  rcases h.inside with inside | ⟨last, -⟩
  · rw [← line, none, List.append_nil] at inside
    omega
  · exact last

/-! ### Line feeds in front of a place -/

theorem isCut (h : p.IsAt t n earlier later) (some : t ≠ []) :
    IsCut '\n' t (earlier ++ p.text :: later) := by
  rw [← h.rows, Text.rows, if_neg some]
  exact cutAfter_isCut '\n' t

theorem extent_eq (h : p.IsAt t n earlier later) :
    Text.extent t = Text.extent earlier.flatten + Text.extent p.text + Text.extent later.flatten := by
  rw [h.whole, Text.extent_append, Text.extent_append, Nat.add_assoc]

/-- Behind the earlier lines, what ends at the offset at the latest is a front of the line. -/
theorem exists_upTo (h : p.IsAt t n earlier later) :
    ∃ before, t.upTo n = earlier.flatten ++ before ∧ before <+: p.text ∧ Text.extent before ≤ p.offset := by
  have offset := h.offset
  obtain ⟨before, split⟩ : earlier.flatten <+: t.upTo n :=
    Text.isPrefix_upTo ⟨_, h.whole.symm⟩ (by omega)
  have fits := Text.extent_upTo_le n t
  rw [← split, Text.extent_append] at fits
  have line : before <+: p.text ++ later.flatten := by
    have front := Text.upTo_isPrefix n t
    rw [← split, h.whole] at front
    exact (List.prefix_append_right_inj _).mp front
  have inside : Text.extent before ≤ Text.extent p.text := by
    rcases h.inside with inside | ⟨-, ended⟩ <;> omega
  exact ⟨before, split.symm, Text.isPrefix_of_extent_le line ⟨_, rfl⟩ inside, by omega⟩

/-- The end of the text is the end of its last line, and every other place is in front of a character
of its line. -/
theorem ends_iff (h : p.IsAt t n earlier later) :
    (n < Text.extent t → p.offset < Text.extent p.text) ∧
      (n = Text.extent t → later = [] ∧ p.offset = Text.extent p.text) := by
  have total := h.extent_eq
  have offset := h.offset
  rcases h.inside with inside | ⟨rfl, ended⟩
  · exact ⟨fun _ => inside, fun _ => by omega⟩
  · rw [List.flatten_nil, Text.extent_nil] at total
    exact ⟨fun _ => by omega, fun _ => ⟨rfl, ended⟩⟩

theorem count_upTo_of_lt (h : p.IsAt t n earlier later) (some : t ≠ [])
    (inside : p.offset < Text.extent p.text) : (t.upTo n).count '\n' = earlier.length := by
  obtain ⟨before, split, ⟨after, line⟩, fits⟩ := h.exists_upTo
  have cut := h.isCut some
  have more : after ≠ [] := by
    rintro rfl
    rw [← line, List.append_nil] at inside
    omega
  have outside : '\n' ∉ before := by
    have last := (cut.inside p.text (by simp)).2
    rw [← line, List.dropLast_append_of_ne_nil more] at last
    exact fun found => last (List.mem_append_left _ found)
  rw [split, List.count_append, cut.count_flatten, List.count_eq_zero.mpr outside, Nat.add_zero]

theorem count_of_ended (h : p.IsAt t n earlier []) (some : t ≠ []) :
    t.count '\n' = earlier.length + if t.getLast? = Option.some '\n' then 1 else 0 := by
  have cut := h.isCut some
  have ⟨nonempty, inside⟩ := cut.inside p.text (by simp)
  have whole : t = earlier.flatten ++ p.text := by simpa using h.whole
  have last : t.getLast? = p.text.getLast? := by
    rw [whole, List.getLast?_append_of_ne_nil _ nonempty]
  rw [last, ← count_of_not_mem_dropLast inside, ← cut.count_flatten, ← List.count_append, ← whole]

theorem eq_of_nil (h : p.IsAt [] n earlier later) : p = ⟨1, [], 0⟩ := by
  have one : [[]] = earlier ++ p.text :: later := h.rows
  obtain ⟨rfl, text, rfl⟩ : earlier = [] ∧ p.text = [] ∧ later = [] := by
    simpa [List.singleton_eq_append_iff] using one
  have number := h.number
  have inside := h.inside
  obtain ⟨k, line, offset⟩ := p
  obtain rfl : line = [] := text
  obtain rfl : k = 1 := number
  obtain rfl : offset = 0 := by simpa using inside
  rfl

theorem number_eq (h : p.IsAt t n earlier later) :
    p.number = if n = Text.extent t ∧ t.getLast? = some '\n' then (t.upTo n).count '\n'
      else 1 + (t.upTo n).count '\n' := by
  by_cases empty : t = []
  · subst empty
    simp [h.eq_of_nil, Text.upTo]
  have number := h.number
  rcases h.inside with inside | ⟨rfl, ended⟩
  · have total := h.extent_eq
    have offset := h.offset
    rw [h.count_upTo_of_lt empty inside, if_neg fun last => by omega]
    omega
  · have count := h.count_of_ended empty
    obtain rfl : n = Text.extent t := by
      rw [h.extent_eq, List.flatten_nil, Text.extent_nil, ← ended]
      exact h.offset
    rw [Text.upTo_extent, count]
    by_cases last : t.getLast? = some '\n'
    · rw [if_pos last, if_pos ⟨rfl, last⟩, number]
    · rw [if_neg last, if_neg (last ·.2), number, Nat.add_comm, Nat.add_zero]

end LinePosition.IsAt

/-- An offset behind the end of the text is in no line. Any other one is in the line with its number,
which holds it in front of its last byte, or at its end where the text ends. The number is `1` more
than there are line feeds in front of the offset; at the end of a text that ends in a line feed it is
no more than that. -/
theorem Text.lineAt?_inverts_lines (t : Text) (n : Nat) :
    match t.lineAt? n with
    | none => extent t < n
    | some p => n ≤ extent t ∧
      (t = [] ∧ p = ⟨1, [], 0⟩ ∨
        ∃ earlier later, IsCut '\n' t (earlier ++ p.text :: later) ∧
          p.number = earlier.length + 1 ∧ extent earlier.flatten + p.offset = n ∧
          (n < extent t → p.offset < extent p.text) ∧
          (n = extent t → later = [] ∧ p.offset = extent p.text)) ∧
      p.number = if n = extent t ∧ t.getLast? = some '\n' then (t.upTo n).count '\n'
        else 1 + (t.upTo n).count '\n' := by
  by_cases le : n ≤ extent t
  · obtain ⟨p, earlier, later, found, place⟩ := exists_lineAt? le
    rw [found]
    refine ⟨le, ?_, place.number_eq⟩
    by_cases empty : t = []
    · subst empty
      exact .inl ⟨rfl, place.eq_of_nil⟩
    · exact .inr ⟨earlier, later, place.isCut empty, place.number, place.offset.symm,
        place.ends_iff⟩
  · have behind : t.lineAt? n = none := if_pos (Nat.lt_of_not_le le)
    rw [behind]
    exact Nat.lt_of_not_le le

/-- A line feed at the end begins no line. -/
example : Text.lineAt? "π\n\n".toList 4 = some ⟨2, "\n".toList, 1⟩ := by decide

end Calculator
