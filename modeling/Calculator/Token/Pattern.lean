import Calculator.Token.Symbol
import Mathlib.Data.Char
import Mathlib.Data.List.Destutter
import Mathlib.Data.List.Lex

/-!
# Patterns of symbols

A list of symbols as one regular expression: an alternation of the symbols, longer ones first, at the
start of the text. What a library of regular expressions makes of it is left open here, up to the two
rules of `Regex.Lawful`; `Regex.alternations` is a library for such expressions alone.
-/

namespace Calculator

/-- What is used of a library of regular expressions. -/
structure Regex where
  Pattern : Type
  /-- An expression for the text itself. -/
  escape : Text → Text
  compile? : Text → Option Pattern
  /-- The offset and the text of the first match. -/
  find? : Pattern → Text → Option (Nat × Text)

namespace Regex

/-- The expression at the start of a text. -/
def anchored (expression : Text) : Text :=
  "^(?:".toList ++ expression ++ [')']

def alternation (R : Regex) (symbols : List Text) : Text :=
  ['|'].intercalate (symbols.map R.escape)

/-- How escaped texts and alternations of them match. -/
structure Lawful (R : Regex) : Prop where
  literal : ∀ s, ∃ p, R.compile? (anchored (R.escape s)) = some p ∧
    ∀ t, R.find? p t = if s <+: t then some (0, s) else none
  /-- The first alternative is tried before the others. -/
  leftmost : ∀ s symbols p q, symbols ≠ [] → R.compile? (anchored (R.escape s)) = some p →
    R.compile? (anchored (R.alternation symbols)) = some q →
    ∃ r, R.compile? (anchored (R.alternation (s :: symbols))) = some r ∧
      ∀ t, R.find? r t = (R.find? p t).or (R.find? q t)

end Regex

namespace Token

/-- Longer symbols come first, and symbols of the same length in alphabetical order. -/
def precedes (a b : Text) : Bool :=
  decide (Text.extent b < Text.extent a ∨ Text.extent a = Text.extent b ∧ a ≤ b)

/-- The symbols in this order, each of them once. -/
def alternatives (symbols : List Text) : List Text :=
  (symbols.mergeSort precedes).destutter (· ≠ ·)

/-- The longest of the symbols that the text begins with. -/
structure IsLongestOf (symbols : List Text) (t m : Text) : Prop where
  mem : m ∈ symbols
  isPrefix : m <+: t
  longest : ∀ n ∈ symbols, n <+: t → n.length ≤ m.length

end Token

namespace Regex

/-- The pattern that finds one of the symbols at the start of a text. -/
def symbolPattern? (R : Regex) (symbols : List Text) : Option R.Pattern :=
  R.compile? (anchored (R.alternation (Token.alternatives symbols)))

/-! ### Alternations of escaped texts -/

def isMeta (c : Char) : Bool :=
  ['\\', '.', '+', '*', '?', '(', ')', '|', '[', ']', '\x7b', '\x7d', '^', '$', '#', '&', '-',
    '~'].contains c

/-- The first alternative and the others. -/
def readAlternatives : Text → Text × List Text
  | [] => ([], [])
  | '|' :: r => ([], (readAlternatives r).1 :: (readAlternatives r).2)
  | '\\' :: c :: r => (c :: (readAlternatives r).1, (readAlternatives r).2)
  | c :: r => (c :: (readAlternatives r).1, (readAlternatives r).2)

/-- Knows no expressions but alternations at the start of a text. -/
def alternations : Regex where
  Pattern := Text × List Text
  escape s := s.flatMap fun c => if isMeta c then ['\\', c] else [c]
  compile? e :=
    let inner := (e.drop 4).dropLast
    if e = anchored inner then some (readAlternatives inner) else none
  find? p t := ((p.1 :: p.2).find? (·.isPrefixOf t)).map (0, ·)

end Regex

end Calculator
