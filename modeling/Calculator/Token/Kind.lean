import Calculator.Operator.Basic
import Calculator.Text.Blank
import Calculator.Token.Number
import Calculator.Token.Symbol

/-!
# Kinds of tokens

`TokenKind.longest?` finds the longest token of a kind at the start of a text. It is never empty
(`longest?_ne_nil`) and the text begins with it (`longest?_isPrefix`).
-/

namespace Calculator

namespace Token

def isNameStart (c : Char) : Bool :=
  c.isAlpha || c == '_' || c == '$'

def isNamePart (c : Char) : Bool :=
  c.isAlphanum || c == '_' || c == '$'

/-- An ASCII letter, `_` or `$`, followed by any number of those and of digits. -/
def name? : Text → Option Text
  | c :: t => if isNameStart c then some (c :: t.takeWhile isNamePart) else none
  | [] => none

/-- One or more `;` with blanks between them. -/
def separator? : Text → Option Text
  | ';' :: t => some (';' :: Text.trimEnd (t.takeWhile fun c => c == ';' || Text.isBlank c))
  | _ => none

def blank? (t : Text) : Option Text :=
  if Text.leadingBlank t = [] then none else some (Text.leadingBlank t)

def char? (c : Char) : Text → Option Text
  | d :: _ => if c = d then some [c] else none
  | [] => none

end Token

inductive TokenKind where
  | blank
  | number
  | name
  | openParen
  | closeParen
  | separator
  | beforeOperand
  | afterVariable
  /-- Any symbol of the table. -/
  | operator
deriving DecidableEq, Repr

namespace TokenKind

def longest? : TokenKind → Text → Option Text
  | blank => Token.blank?
  | number => Token.numeral?
  | name => Token.name?
  | openParen => Token.char? '('
  | closeParen => Token.char? ')'
  | separator => Token.separator?
  | beforeOperand => Token.longestSymbol? (Operator.beforeOperand.map Operator.symbol)
  | afterVariable => Token.longestSymbol? (Operator.afterVariable.map Operator.symbol)
  | operator => Token.longestSymbol? (Operator.all.map Operator.symbol)

end TokenKind

namespace Token

/-! ### A token is not empty and stands at the start -/

theorem symbol_ne_nil (op : Operator) : op.symbol ≠ [] := by
  cases op <;> decide

theorem longestSymbol?_ne_nil {ops : List Operator} {t m : Text}
    (h : longestSymbol? (ops.map Operator.symbol) t = some m) : m ≠ [] := by
  obtain ⟨op, -, rfl⟩ := List.mem_map.mp (longestSymbol?_mem h)
  exact symbol_ne_nil op

theorem trimEnd_isPrefix (t : Text) : Text.trimEnd t <+: t := by
  rw [← List.reverse_suffix]
  simpa [Text.trimEnd] using List.dropWhile_suffix (l := t.reverse) Text.isBlank

theorem separator?_isPrefix {t m : Text} (h : separator? t = some m) : m <+: t := by
  unfold separator? at h
  split at h
  · injection h with h
    subst h
    exact (List.prefix_append_right_inj [';']).mpr
      ((trimEnd_isPrefix _).trans (List.takeWhile_prefix _))
  · contradiction

theorem name?_isPrefix {t m : Text} (h : name? t = some m) : m <+: t := by
  unfold name? at h
  split at h
  case h_1 c r =>
    split at h
    · injection h with h
      subst h
      exact (List.prefix_append_right_inj [c]).mpr (List.takeWhile_prefix _)
    · contradiction
  case h_2 => contradiction

theorem char?_isPrefix {c : Char} {t m : Text} (h : char? c t = some m) : m <+: t := by
  unfold char? at h
  split at h
  case h_1 d r => grind
  case h_2 => contradiction

end Token

namespace TokenKind

theorem longest?_isPrefix {k : TokenKind} {t m : Text} (h : k.longest? t = some m) : m <+: t := by
  cases k with
  | blank =>
    simp only [longest?, Token.blank?] at h
    split at h
    · contradiction
    · injection h with h
      exact h ▸ List.takeWhile_prefix _
  | number => exact Token.numeral?_isPrefix h
  | name => exact Token.name?_isPrefix h
  | openParen => exact Token.char?_isPrefix h
  | closeParen => exact Token.char?_isPrefix h
  | separator => exact Token.separator?_isPrefix h
  | beforeOperand => exact Token.longestSymbol?_isPrefix h
  | afterVariable => exact Token.longestSymbol?_isPrefix h
  | operator => exact Token.longestSymbol?_isPrefix h

theorem longest?_ne_nil {k : TokenKind} {t m : Text} (h : k.longest? t = some m) : m ≠ [] := by
  cases k with
  | blank => simp only [longest?, Token.blank?] at h; grind
  | number => exact Token.numeral?_ne_nil h
  | name => simp only [longest?, Token.name?] at h; grind
  | openParen => simp only [longest?, Token.char?] at h; grind
  | closeParen => simp only [longest?, Token.char?] at h; grind
  | separator => simp only [longest?, Token.separator?] at h; grind
  | beforeOperand => exact Token.longestSymbol?_ne_nil h
  | afterVariable => exact Token.longestSymbol?_ne_nil h
  | operator => exact Token.longestSymbol?_ne_nil h

end TokenKind

end Calculator
