import Calculator.Session.Trace
import Calculator.Token.Language
import Mathlib.Data.List.Forall2

/-!
# Spacing

When two texts are the same up to the blanks around the tokens that an evaluation passes, and when
two errors are the same up to the place that such blanks give them.
-/

namespace Calculator

/-- The same token with other blanks behind it, and with some if there were any. -/
structure Lexeme.Respaced (l l' : Lexeme) : Prop where
  kind : l'.kind = l.kind
  text : l'.text = l.text
  blank : Token.AllBlank l'.blank
  apart : l.blank ≠ [] → l'.blank ≠ []

/-- The text of some tokens, which are given latest first. -/
def spell : List Lexeme → Text
  | [] => []
  | l :: earlier => spell earlier ++ l.text ++ l.blank

/-- `text` is `source` with other blanks between the tokens that an evaluation passes, and at both
ends. -/
def Session.Respaced (s : Session) (source text : Text) : Prop :=
  ∃ ls, List.Forall₂ Lexeme.Respaced (s.tokens source) ls ∧
    Text.trim text = Text.trim (spell ls ++ (s.stop source).rest)

/-- The same fault at the same character, or at the end of both texts. -/
structure Error.Moved (source text : Text) (e e' : Error) : Prop where
  fault : e'.fault = e.fault
  ink : Text.ink text = Text.ink source
  place : ∃ n, Text.InkAt source n e.offset ∧ Text.InkAt text n e'.offset

end Calculator
