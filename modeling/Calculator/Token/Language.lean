import Calculator.Token.Kind

/-!
# Token languages

`TokenKind.Language` says which texts are tokens of a kind, without a matcher.
`TokenKind.IsLongest` says that a text begins with a token of the kind and with no longer one.
-/

namespace Calculator

namespace Token

def AllDigits (t : Text) : Prop :=
  ∀ c ∈ t, c.isDigit

/-- A numeral up to its exponent. -/
inductive IsSignificand : Text → Prop
  | whole {d : Text} : d ≠ [] → AllDigits d → IsSignificand d
  | pointed {d f : Text} : d ≠ [] → AllDigits d → AllDigits f → IsSignificand (d ++ '.' :: f)
  | fraction {f : Text} : f ≠ [] → AllDigits f → IsSignificand ('.' :: f)

inductive IsNumeral : Text → Prop
  | plain {s : Text} : IsSignificand s → IsNumeral s
  | scaled {s d : Text} {mark : Char} : IsSignificand s → mark = 'e' ∨ mark = 'E' → d ≠ [] →
      AllDigits d → IsNumeral (s ++ mark :: d)

inductive IsName : Text → Prop
  | intro {c : Char} {t : Text} : isNameStart c → (∀ d ∈ t, isNamePart d) → IsName (c :: t)

def AllBlank (t : Text) : Prop :=
  ∀ c ∈ t, Text.isBlank c

inductive IsSeparator : Text → Prop
  | single : IsSeparator [';']
  | more {s b : Text} : IsSeparator s → AllBlank b → IsSeparator (s ++ b ++ [';'])

end Token

namespace TokenKind

def Language : TokenKind → Text → Prop
  | blank, t => t ≠ [] ∧ Token.AllBlank t
  | number, t => Token.IsNumeral t
  | name, t => Token.IsName t
  | openParen, t => t = ['(']
  | closeParen, t => t = [')']
  | separator, t => Token.IsSeparator t
  | beforeOperand, t => t ∈ Operator.beforeOperand.map Operator.symbol
  | afterVariable, t => t ∈ Operator.afterVariable.map Operator.symbol
  | operator, t => t ∈ Operator.all.map Operator.symbol

/-- `m` is the longest token of the kind that `t` begins with. -/
structure IsLongest (k : TokenKind) (t m : Text) : Prop where
  isPrefix : m <+: t
  language : k.Language m
  longest : ∀ n, n <+: t → k.Language n → n.length ≤ m.length

theorem IsLongest.unique {k : TokenKind} {t m n : Text} (hm : k.IsLongest t m)
    (hn : k.IsLongest t n) : m = n :=
  (List.prefix_of_prefix_length_le hm.isPrefix hn.isPrefix
    (hn.longest m hm.isPrefix hm.language)).eq_of_length
    (Nat.le_antisymm (hn.longest m hm.isPrefix hm.language)
      (hm.longest n hn.isPrefix hn.language))

end TokenKind

end Calculator
