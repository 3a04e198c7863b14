import Calculator.Fault
import Calculator.Grammar.Derivation

/-!
# Causes of errors

What an error says of the text at its offset. `Fault.Fits` looks at nothing but what stands there,
and knows neither the rules nor a cursor.
-/

namespace Calculator

/-- `found` shows the first character of what is ahead, or tells that nothing is. -/
structure Describes (found ahead : Text) : Prop where
  ended : found = "end of input".toList ↔ ahead = []
  shown : ∀ c rest, ahead = c :: rest → found = ['`', c, '`']

namespace Fault

/-- The fault is one of the text with `ahead` at its offset; `stopped` says that nothing behind that
offset has been read. -/
def Fits (ahead : Text) (stopped : Prop) : Fault → Prop
  | expectedOperand found => stopped ∧ Describes found ahead
  | unclosedParenthesis found => stopped ∧ Describes found ahead ∧ found ≠ "`)`".toList
  | unexpectedCharacter found =>
    stopped ∧ Describes found ahead ∧ ahead ≠ [] ∧ found ≠ "`;`".toList
  | immutableBinding symbol =>
    ∃ op, Grammar.writes op ∧ symbol = op.symbol ∧ symbol <+: ahead
  | invalidNumber _ | invalidArity .. => False

/-- Faults that no text can have: the rules themselves would be at fault. -/
def isInternal : Fault → Bool
  | invalidNumber _ | invalidArity .. => true
  | _ => false

end Fault

/-- The error stands in `source` between `front` and `ahead`, not at a blank, and fits what is ahead.
An evaluation of `source` has read it up to `stop`. -/
structure Error.PointsAt (source : Text) (stop : Nat) (front ahead : Text) (e : Error) : Prop where
  whole : source = front ++ ahead
  offset : e.offset = Text.extent front
  visible : ∀ c rest, ahead = c :: rest → ¬ Text.isBlank c
  fits : e.fault.Fits ahead (e.offset = stop)

end Calculator
