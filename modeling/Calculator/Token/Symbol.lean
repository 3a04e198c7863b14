import Calculator.Text.Basic

/-!
# Longest symbols

`longestSymbol?` picks, from a list of symbols, the longest one that a text begins with.
-/

namespace Calculator.Token

def longestSymbol? : List Text → Text → Option Text
  | [], _ => none
  | s :: symbols, t =>
    if s.isPrefixOf t then
      match longestSymbol? symbols t with
      | some longer => if s.length < longer.length then some longer else some s
      | none => some s
    else longestSymbol? symbols t

theorem longestSymbol?_isPrefix {symbols : List Text} {t m : Text}
    (h : longestSymbol? symbols t = some m) : m <+: t := by
  induction symbols with
  | nil => simp [longestSymbol?] at h
  | cons s symbols ih => grind [longestSymbol?]

theorem longestSymbol?_mem {symbols : List Text} {t m : Text}
    (h : longestSymbol? symbols t = some m) : m ∈ symbols := by
  induction symbols with
  | nil => simp [longestSymbol?] at h
  | cons s symbols ih => grind [longestSymbol?]

end Calculator.Token
