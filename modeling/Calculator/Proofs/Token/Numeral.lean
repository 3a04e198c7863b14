import Calculator.Number.Decimal
import Calculator.Proofs.Token.Longest
import Mathlib.Data.List.TakeDrop

/-!
# Every numeral is read

The reader of decimals does not use the matcher of numerals. `read?_isSome_of_isNumeral` shows that
it refuses no numeral, whatever its length and its exponent. `read?_digits` and `read?_pointed` say
what it reads where there is no exponent.
-/

namespace Calculator

namespace Decimal

open Token

/-- Reading from the four parts of a numeral: digits before and after the point, and whether there
is a mark with digits behind it. -/
theorem read?_of_parts {t whole pointed marked : Text}
    (hmark : (t.span fun c => c ≠ 'e' && c ≠ 'E') = (whole ++ pointed, marked))
    (hpoint : (whole ++ pointed).span (· ≠ '.') = (whole, pointed))
    (hne : whole ++ pointed.drop 1 ≠ []) (hdigits : AllDigits (whole ++ pointed.drop 1))
    (hscale : marked ≠ [] → marked.drop 1 ≠ []) (hall : AllDigits (marked.drop 1)) :
    read? t = some ⟨ofDigits (whole ++ pointed.drop 1),
      (ofDigits (marked.drop 1) : Int) - (pointed.drop 1).length⟩ := by
  have hd : (whole ++ pointed.drop 1).all Char.isDigit := List.all_eq_true.mpr hdigits
  have hs : (marked.drop 1).all Char.isDigit := List.all_eq_true.mpr hall
  simp only [read?, hmark, hpoint]
  rw [if_neg (by simp only [hd]; simpa using hne), if_neg (by
    simp only [hs, Bool.or_eq_true, Bool.and_eq_true, Bool.not_eq_true', List.isEmpty_iff,
      Bool.not_true, Bool.false_eq_true, or_false, List.isEmpty_eq_false_iff]
    exact fun h => hscale h.1 h.2)]

theorem span_append_of_pos {p : Char → Bool} {s r : Text} (hs : ∀ c ∈ s, p c)
    (hr : ∀ c u, r = c :: u → ¬ p c) : (s ++ r).span p = (s, r) := by
  rw [List.span_eq_takeWhile_dropWhile, List.takeWhile_append_of_pos hs,
    List.dropWhile_append_of_pos hs]
  cases r with
  | nil => simp
  | cons c u => simp [hr c u rfl]

theorem ne_of_isDigit {c d : Char} (hc : c.isDigit) (hd : ¬ d.isDigit) : c ≠ d := by
  rintro rfl
  exact hd hc

theorem span_point {d r : Text} (hd : AllDigits d) (hr : ∀ c u, r = c :: u → c = '.') :
    (d ++ r).span (· ≠ '.') = (d, r) := by
  refine span_append_of_pos (fun c hc => decide_eq_true (ne_of_isDigit (hd c hc) (by decide))) ?_
  intro c u h
  simp [hr c u h]

/-- The part of a numeral before its exponent, cut at the point. -/
theorem exists_parts_of_isSignificand {s : Text} (hs : IsSignificand s) :
    ∃ whole pointed, s = whole ++ pointed ∧ s.span (· ≠ '.') = (whole, pointed) ∧
      whole ++ pointed.drop 1 ≠ [] ∧ AllDigits (whole ++ pointed.drop 1) := by
  cases hs with
  | whole hn hd =>
    refine ⟨s, [], by simp, ?_, by simpa using hn, by simpa using hd⟩
    simpa using span_point (r := []) hd (by simp)
  | @pointed d f hn hd hf =>
    exact ⟨d, '.' :: f, rfl, span_point hd fun _ _ h => (List.cons.inj h).1.symm, by simp [hn],
      List.forall_mem_append.mpr ⟨hd, hf⟩⟩
  | @fraction f hn hf =>
    exact ⟨[], '.' :: f, rfl,
      span_point (d := []) (fun _ h => nomatch h) fun _ _ h => (List.cons.inj h).1.symm,
      by simpa using hn, hf⟩

theorem ne_mark_of_isSignificand {s : Text} (hs : IsSignificand s) :
    ∀ c ∈ s, (c ≠ 'e' && c ≠ 'E') := by
  have digits {d : Text} (hd : AllDigits d) : ∀ c ∈ d, (c ≠ 'e' && c ≠ 'E') := fun c hc => by
    simp [ne_of_isDigit (hd c hc) (d := 'e') (by decide),
      ne_of_isDigit (hd c hc) (d := 'E') (by decide)]
  have point : ('.' ≠ 'e' && '.' ≠ 'E') := by decide
  cases hs with
  | whole hn hd => exact digits hd
  | pointed hn hd hf =>
    exact List.forall_mem_append.mpr ⟨digits hd, List.forall_mem_cons.mpr ⟨point, digits hf⟩⟩
  | fraction hn hf => exact List.forall_mem_cons.mpr ⟨point, digits hf⟩

/-- Reading a numeral without an exponent from its parts. -/
theorem read?_of_isSignificand {whole pointed : Text} (hs : IsSignificand (whole ++ pointed))
    (hpoint : (whole ++ pointed).span (· ≠ '.') = (whole, pointed))
    (hne : whole ++ pointed.drop 1 ≠ []) (hdigits : AllDigits (whole ++ pointed.drop 1)) :
    read? (whole ++ pointed) =
      some ⟨ofDigits (whole ++ pointed.drop 1), -(pointed.drop 1).length⟩ := by
  have hmark := span_append_of_pos (r := []) (ne_mark_of_isSignificand hs) (by simp)
  rw [List.append_nil] at hmark
  rw [read?_of_parts hmark hpoint hne hdigits (fun h => absurd rfl h) (fun _ h => nomatch h)]
  simp [ofDigits]

theorem read?_isSome_of_isNumeral {m : Text} (hm : IsNumeral m) : (read? m).isSome := by
  cases hm with
  | plain hs =>
    obtain ⟨whole, pointed, rfl, hpoint, hne, hdigits⟩ := exists_parts_of_isSignificand hs
    rw [read?_of_isSignificand hs hpoint hne hdigits]
    rfl
  | @scaled s d mark hs hc hn hd =>
    obtain ⟨whole, pointed, rfl, hpoint, hne, hdigits⟩ := exists_parts_of_isSignificand hs
    have hmark : ((whole ++ pointed ++ mark :: d).span fun c => c ≠ 'e' && c ≠ 'E') =
        (whole ++ pointed, mark :: d) := by
      refine span_append_of_pos (ne_mark_of_isSignificand hs) ?_
      rintro c u h
      obtain ⟨rfl, -⟩ := List.cons.inj h
      rcases hc with rfl | rfl <;> decide
    rw [read?_of_parts hmark hpoint hne hdigits (fun _ => hn) hd]
    rfl

theorem read?_digits {d : Text} (hn : d ≠ []) (hd : AllDigits d) :
    read? d = some ⟨ofDigits d, 0⟩ := by
  have alone : d ++ [] = d := List.append_nil d
  have read := read?_of_isSignificand (alone.symm ▸ .whole hn hd)
    (span_point (r := []) hd fun _ _ h => nomatch h) (alone.symm ▸ hn) (alone.symm ▸ hd)
  rw [List.drop_nil, alone] at read
  exact read

theorem read?_pointed {d f : Text} (hn : d ≠ []) (hd : AllDigits d) (hf : AllDigits f) :
    read? (d ++ '.' :: f) = some ⟨ofDigits (d ++ f), -f.length⟩ :=
  read?_of_isSignificand (.pointed hn hd hf) (span_point hd fun _ _ h => (List.cons.inj h).1.symm)
    (List.append_ne_nil_of_left_ne_nil hn f) (List.forall_mem_append.mpr ⟨hd, hf⟩)

end Decimal

end Calculator
