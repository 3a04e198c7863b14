import Calculator.Console.Basic

/-!
# Dialogues

What the console comes to on its input, one line after the other: the lines that it reads, the session
that each of them meets and leaves, and what is written for it.
-/

namespace Calculator

/-- `pieces` make up `t`. None is empty, each goes no further than to its first separator, and only
the last one may end without it. -/
structure IsCut {α : Type} (separator : α) (t : List α) (pieces : List (List α)) : Prop where
  whole : pieces.flatten = t
  inside : ∀ piece ∈ pieces, piece ≠ [] ∧ separator ∉ piece.dropLast
  ended : ∀ piece ∈ pieces.dropLast, piece.getLast? = some separator

namespace Console

/-- The lines before the first one that is not UTF-8. -/
def readable : List (List UInt8) → List Text
  | [] => []
  | bytes :: rest =>
    match Text.ofUtf8? bytes with
    | some line => line :: readable rest
    | none => []

/-- The session after a line. -/
def heard (s : Session) (line : Text) : Session :=
  if line.all Text.isBlank then s else (s.evaluate (Text.trimEnd line)).2

/-- The value of a line as it is written to the standard output. -/
def shown (s : Session) (line : Text) : Text :=
  if line.all Text.isBlank then []
  else
    match (s.evaluate (Text.trimEnd line)).1 with
    | .ok v => formatNumber v ++ ['\n']
    | .error _ => []

/-- The error of a line as it is written to the standard error. -/
def reported (s : Session) (line : Text) : Text :=
  if line.all Text.isBlank then []
  else
    match (s.evaluate (Text.trimEnd line)).1 with
    | .ok _ => []
    | .error e => e.report (Text.trimEnd line) inputName

/-- The lines, each with the session that it meets. -/
def exchanges (s : Session) (lines : List Text) : List (Session × Text) :=
  (lines.scanl heard s).zip lines

end Console

end Calculator
