import Calculator.Text.Basic

/-!
# Numerals

A numeral is a row of digits with an optional point and optional further digits, or a point and at
least one digit; either may end in an `e` or `E` and at least one digit. `numeral?` finds the
longest one at the start of a text.
-/

namespace Calculator.Token

def digits (t : Text) : Text :=
  t.takeWhile Char.isDigit

/-- The longest numeral without an exponent; empty if there is none. -/
def significand (t : Text) : Text :=
  match t.dropWhile Char.isDigit with
  | '.' :: r => if digits t = [] ∧ digits r = [] then [] else digits t ++ '.' :: digits r
  | _ => digits t

/-- An exponent mark with its digits; empty if no digit follows the mark. -/
def scale : Text → Text
  | [] => []
  | c :: r => if (c = 'e' ∨ c = 'E') ∧ digits r ≠ [] then c :: digits r else []

def numeral? (t : Text) : Option Text :=
  if significand t = [] then none
  else some (significand t ++ scale (t.drop (significand t).length))

/-! ### A numeral stands at the start of the text -/

theorem digits_isPrefix (t : Text) : digits t <+: t :=
  List.takeWhile_prefix _

theorem significand_isPrefix (t : Text) : significand t <+: t := by
  unfold significand
  split
  case h_1 r h =>
    split
    · exact List.nil_prefix
    · conv => rhs; rw [← List.takeWhile_append_dropWhile (p := Char.isDigit) (l := t), h]
      exact (List.prefix_append_right_inj _).mpr
        ((List.prefix_append_right_inj ['.']).mpr (digits_isPrefix r))
  case h_2 => exact digits_isPrefix t

theorem scale_isPrefix (t : Text) : scale t <+: t := by
  cases t with
  | nil => exact List.nil_prefix
  | cons c r =>
    rw [scale]
    split
    · exact (List.prefix_append_right_inj [c]).mpr (digits_isPrefix r)
    · exact List.nil_prefix

theorem numeral?_isPrefix {t m : Text} (h : numeral? t = some m) : m <+: t := by
  unfold numeral? at h
  split at h
  · contradiction
  · injection h with h
    obtain ⟨r, hr⟩ := significand_isPrefix t
    have hdrop : t.drop (significand t).length = r := by
      conv => lhs; arg 2; rw [← hr]
      exact List.drop_left
    rw [← h, hdrop]
    conv => rhs; rw [← hr]
    exact (List.prefix_append_right_inj _).mpr (scale_isPrefix r)

theorem numeral?_ne_nil {t m : Text} (h : numeral? t = some m) : m ≠ [] := by
  unfold numeral? at h
  split at h
  case isTrue => contradiction
  case isFalse hs =>
    injection h with h
    exact fun hm => hs (List.append_eq_nil_iff.mp (h.trans hm)).1

end Calculator.Token
