import Calculator.Proofs.Session.Errors
import Calculator.Proofs.Text.Line
import Calculator.Report

/-!
# Reports show where an error is

The report on a failed evaluation has five lines, and the arrow in the last one ends below the
character of the text that the error points at (`Session.evaluate_error_report`).
-/

namespace Calculator

namespace Text

/-! ### Lines without their indentation -/

theorem indentation_add_length (t : Text) :
    indentation t + (t.dropWhile (· = ' ')).length = t.length := by
  rw [indentation, ← List.length_append, List.takeWhile_append_dropWhile]

theorem drop_indentation (t : Text) : t.drop (indentation t) = t.dropWhile (· = ' ') :=
  drop_length_takeWhile (· = ' ') t

theorem dropWhile_append_cons {c : Char} (other : c ≠ ' ') (t u : Text) :
    (t ++ c :: u).dropWhile (· = ' ') = t.dropWhile (· = ' ') ++ c :: u := by
  rw [List.dropWhile_append]
  split
  case isTrue none => simp [List.isEmpty_iff.mp none, other]
  case isFalse => rfl

/-- The indentation is taken off the column as it is taken off the line. -/
theorem pointed (label : Text) {line before after : Text} (split : line = before ++ after)
    (visible : ∀ c rest, after = c :: rest → ¬ isBlank c) :
    Pointed label before after (label ++ trimEnd (line.drop (indentation line)))
      (label.length + (before.length - indentation line)) := by
  have lengths := indentation_add_length line
  rw [drop_indentation]
  refine ⟨by rw [split], fun c rest more => ?_, fun none => ?_⟩
  · subst more
    have hc := visible c rest rfl
    have other : c ≠ ' ' := by
      rintro rfl
      exact hc (by decide)
    have kept : line.dropWhile (· = ' ') = before.dropWhile (· = ' ') ++ c :: rest := by
      rw [split, dropWhile_append_cons other]
    rw [kept, split, List.length_append, List.length_append] at lengths
    refine ⟨before.takeWhile (· = ' '), before.dropWhile (· = ' '),
      List.takeWhile_append_dropWhile.symm, fun x hx => ?_, ?_, ?_⟩
    · simpa using List.mem_takeWhile_imp hx
    · rw [kept, trimEnd_append_cons hc, List.append_assoc]
    · rw [List.length_append, split]
      omega
  · have trimmed := (Token.trimEnd_isPrefix (line.dropWhile (· = ' '))).length_le
    rw [split, none, List.append_nil] at lengths trimmed ⊢
    rw [List.length_append]
    omega

end Text

/-! ### Texts without line feeds -/

theorem Describes.not_mem {found ahead : Text} (h : Describes found ahead)
    (visible : ∀ c rest, ahead = c :: rest → ¬ Text.isBlank c) : '\n' ∉ found := by
  cases ahead with
  | nil =>
    rw [h.ended.mpr rfl]
    decide
  | cons c rest =>
    rw [h.shown c rest rfl]
    have other : '\n' ≠ c := by
      rintro rfl
      exact visible _ rest rfl (by decide)
    simp [other]

theorem Operator.not_mem_symbol (op : Operator) : '\n' ∉ op.symbol := by
  cases op <;> decide

theorem not_mem_toDigits (n : Nat) : '\n' ∉ Nat.toDigits 10 n := by
  intro found
  exact absurd (Token.allDigits_toDigits n _ found) (by decide)

theorem Fault.not_mem_name (f : Fault) : '\n' ∉ f.name := by
  cases f <;> exact of_decide_eq_true rfl

theorem Fault.Fits.not_mem_tip {f : Fault} {ahead tip : Text} {stopped : Prop}
    (h : f.Fits ahead stopped) (visible : ∀ c rest, ahead = c :: rest → ¬ Text.isBlank c)
    (ht : f.tip? = some tip) : '\n' ∉ tip := by
  cases f with
  | expectedOperand found =>
    obtain rfl := Option.some.inj ht
    simp only [List.mem_append, not_or]
    exact ⟨by decide, h.2.not_mem visible⟩
  | unclosedParenthesis found =>
    obtain rfl := Option.some.inj ht
    simp only [List.mem_append, not_or]
    exact ⟨⟨by decide, h.2.1.not_mem visible⟩, by decide⟩
  | unexpectedCharacter found =>
    obtain rfl := Option.some.inj ht
    simp only [List.mem_append, not_or]
    exact ⟨⟨by decide, h.2.1.not_mem visible⟩, by decide⟩
  | immutableBinding symbol =>
    obtain ⟨op, -, rfl, -⟩ := h
    obtain rfl := Option.some.inj ht
    simp only [List.mem_append, not_or]
    exact ⟨⟨by decide, op.not_mem_symbol⟩, by decide⟩
  | invalidNumber => exact h.elim
  | invalidArity => exact h.elim

theorem Error.PointsAt.not_mem_title {source front ahead : Text} {stop : Nat} {e : Error}
    (h : e.PointsAt source stop front ahead) : '\n' ∉ e.title := by
  unfold Error.title
  split
  case h_1 tip ht =>
    simp only [List.mem_append, not_or]
    exact ⟨⟨⟨⟨by decide, e.fault.not_mem_name⟩, by decide⟩, h.fits.not_mem_tip h.visible ht⟩,
      by decide⟩
  case h_2 =>
    simp only [List.mem_append, not_or]
    exact ⟨by decide, e.fault.not_mem_name⟩

/-! ### The five lines -/

theorem Text.alignRight_singleton (fill c : Char) (n : Nat) :
    alignRight fill (n + 1) [c] = List.replicate n fill ++ [c] := rfl

/-- The margin and the arrow are as wide as the label and what is left of the column. -/
theorem Error.exists_reportLines (e : Error) (source name : Text) :
    let p := e.line source
    let label := Nat.toDigits 10 p.number ++ " | ".toList
    ∃ margin arrow, '\n' ∉ margin ∧ '\n' ∉ arrow ∧
      arrow.length = label.length + (p.column - Text.indentation p.text) ∧
      e.reportLines source name = [e.title, "-> ".toList ++ name, margin,
        label ++ Text.trimEnd (p.text.drop (Text.indentation p.text)), arrow ++ ['^']] := by
  intro p label
  let margin := Text.alignRight ' ' ((Nat.toDigits 10 p.number).length + 2) ['|']
  let dashes := List.replicate (p.column - Text.indentation p.text) '-'
  have plain : '\n' ∉ margin := by simp [margin, Text.alignRight_singleton]
  refine ⟨margin, margin ++ ' ' :: dashes, plain, by simp [dashes, plain], ?_, ?_⟩
  · simp [margin, dashes, label, Text.alignRight_singleton]
    omega
  · simp [Error.reportLines, margin, dashes, label, Text.alignRight_singleton, p]

namespace Text

/-- Without the blanks at its end a line has no line feed. -/
theorem not_mem_trimEnd {t : Text} (h : '\n' ∉ t.dropLast) : '\n' ∉ trimEnd t := by
  rcases Token.trimEnd_eq_nil_or_concat t with empty | ⟨u, c, concat, hc⟩
  · rw [empty]
    exact List.not_mem_nil
  · obtain ⟨r, whole⟩ := Token.trimEnd_isPrefix t
    rw [concat, List.append_assoc, List.singleton_append] at whole
    rw [← whole, List.dropLast_append_cons, List.mem_append, not_or] at h
    have other : '\n' ≠ c := by
      rintro rfl
      exact hc (by decide)
    simp [concat, h.1, other]

theorem not_mem_trimEnd_drop {source line : Text} (h : line ∈ source.rows) (n : Nat) :
    '\n' ∉ trimEnd (line.drop n) := by
  refine not_mem_trimEnd ?_
  rw [List.dropLast_drop_eq_drop_dropLast]
  exact fun found => not_mem_dropLast_of_mem_rows h (List.mem_of_mem_drop found)

end Text

/-! ### The line of an error -/

/-- The error is in a line of the text, between two of its characters. -/
theorem Error.PointsAt.exists_line {source front ahead : Text} {stop : Nat} {e : Error}
    (h : e.PointsAt source stop front ahead) :
    ∃ p earlier later before after, source.lineAt? e.offset = some p ∧
      p.IsAt source e.offset earlier later ∧ p.text = before ++ after ∧
      Text.upTo? p.offset p.text = some before ∧ (after = [] ↔ ahead = []) ∧
      ∀ c rest, after = c :: rest → ¬ Text.isBlank c := by
  have le : e.offset ≤ Text.extent source := h.total ▸ Nat.le_add_right _ _
  obtain ⟨p, earlier, later, found, place⟩ := Text.exists_lineAt? le
  obtain ⟨before, after, line, offset, behind, last⟩ := place.exists_cut h.whole h.offset
  refine ⟨p, earlier, later, before, after, found, place, line, ?_, ?_, fun c rest more => ?_⟩
  · rw [offset, line, Text.upTo?_extent]
  · rw [behind]
    constructor
    · intro none
      rw [none, last none]
      rfl
    · exact fun none => (List.append_eq_nil_iff.mp none).1
  · exact h.visible c (rest ++ later.flatten) (by rw [behind, more, List.cons_append])

namespace Session

/-- A report has five lines: behind the number of a line of the text, the line that holds the error,
without the spaces in front of it and the blanks at its end, and below it an arrow to the character
that the error points at, or behind all that is shown. -/
theorem evaluate_error_report {s : Session} {source name : Text} {e : Error}
    (failed : (s.evaluate source).1 = .error e) (plain : '\n' ∉ name) :
    ∃ p earlier later before after margin shown arrow,
      source.lineAt? e.offset = some p ∧ p.IsAt source e.offset earlier later ∧
      p.text = before ++ after ∧ Text.upTo? p.offset p.text = some before ∧
      (after = [] ↔ e.offset = Text.extent source) ∧
      Text.lines (e.report source name) =
        [e.title, "-> ".toList ++ name, margin, shown, arrow ++ ['^']].map (· ++ ['\n']) ∧
      Text.Pointed (Nat.toDigits 10 p.number ++ " | ".toList) before after shown arrow.length := by
  obtain ⟨front, ahead, points⟩ := exists_pointsAt failed
  obtain ⟨p, earlier, later, before, after, found, place, line, cut, last, visible⟩ :=
    points.exists_line
  obtain ⟨margin, arrow, plainMargin, plainArrow, length, lines⟩ :=
    e.exists_reportLines source name
  have shownLine : e.line source = p := by rw [Error.line, found]; rfl
  have column : p.column = before.length := by rw [LinePosition.column, cut]
  rw [shownLine] at length lines
  have pointed := Text.pointed (Nat.toDigits 10 p.number ++ " | ".toList) line visible
  rw [← column, ← length] at pointed
  refine ⟨p, earlier, later, before, after, margin, _, arrow, found, place, line, cut,
    last.trans points.ended_iff, ?_, pointed⟩
  rw [← lines]
  refine cutAfter_flatMap ?_
  rw [lines]
  simp [plainMargin, plainArrow, plain, points.not_mem_title, not_mem_toDigits,
    Text.not_mem_trimEnd_drop place.text_mem]

/-- An update of a number in the second line, behind two spaces and a blank of three bytes. -/
theorem evaluate_error_report_update :
    let source : Text := "\n  \u3000++ 1".toList
    let name : Text := "<eval>".toList
    let e : Error := ⟨.immutableBinding "++".toList, 6⟩
    (Session.initial.evaluate source).1 = .error e ∧ '\n' ∉ name ∧
      (e.reportLines source name).drop 3 = ["2 | \u3000++ 1".toList, "  | -^".toList] ∧
      ∃ p earlier later before after margin shown arrow,
        source.lineAt? e.offset = some p ∧ p.IsAt source e.offset earlier later ∧
        p.text = before ++ after ∧ Text.upTo? p.offset p.text = some before ∧
        (after = [] ↔ e.offset = Text.extent source) ∧
        Text.lines (e.report source name) =
          [e.title, "-> ".toList ++ name, margin, shown, arrow ++ ['^']].map (· ++ ['\n']) ∧
        Text.Pointed (Nat.toDigits 10 p.number ++ " | ".toList) before after shown
          arrow.length := by
  intro source name e
  have symbol : (Cursor.start source).take? .beforeOperand = some (Operator.preIncrement.symbol, _) :=
    Cursor.take?_eq_some_iff.mpr ⟨by decide, rfl⟩
  have number : ((Cursor.start source).pass .beforeOperand "++".toList).take? .number =
      some (['1'], _) := Cursor.take?_eq_some_iff.mpr ⟨by decide, rfl⟩
  have read : Grammar.Reads .term (.unary .preIncrement 6 (.number ['1'])) (.start source) _ :=
    .before rfl symbol (.atom (.number number))
  obtain ⟨result, -⟩ := result_of_reads Reachable.initial.sound (read.loosen (Nat.zero_le _)) rfl
  have failed : (Session.initial.evaluate source).1 = .error e := by
    rw [evaluate_eq, result]
    rfl
  exact ⟨failed, by decide, by decide, evaluate_error_report failed (by decide)⟩

end Session

end Calculator
