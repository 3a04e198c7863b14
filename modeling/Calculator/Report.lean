import Calculator.Fault
import Calculator.Text.Blank
import Calculator.Text.Line

/-!
# Error reports

`Error.reportLines` shows an error in five lines: the fault, the name of the text, a margin, the
line of the text that holds the error and an arrow to the place.
-/

namespace Calculator

/-- `t` at the end of a field of `width` characters, or `t` alone if it is wider. -/
def Text.alignRight (fill : Char) (width : Nat) (t : Text) : Text :=
  List.replicate (width - t.length) fill ++ t

/-- The spaces that `t` begins with; no other blanks. -/
def Text.indentation (t : Text) : Nat :=
  (t.takeWhile (· = ' ')).length

/-- The number of characters before the place, if it lies between two of them, and otherwise the
number of bytes. -/
def LinePosition.column (p : LinePosition) : Nat :=
  match Text.upTo? p.offset p.text with
  | some before => before.length
  | none => p.offset

namespace Error

/-- The line to show; the whole text, if the error lies behind its end. -/
def line (e : Error) (source : Text) : LinePosition :=
  (source.lineAt? e.offset).getD ⟨1, source, 0⟩

def title (e : Error) : Text :=
  match e.fault.tip? with
  | some tip => "Error: ".toList ++ e.fault.name ++ " (".toList ++ tip ++ [')']
  | none => "Error: ".toList ++ e.fault.name

def reportLines (e : Error) (source name : Text) : List Text :=
  let p := e.line source
  let number := Nat.toDigits 10 p.number
  let margin := Text.alignRight ' ' (number.length + 2) ['|']
  let indentation := Text.indentation p.text
  let arrow := Text.alignRight '-' (p.column - indentation + 1) ['^']
  [e.title, "-> ".toList ++ name, margin,
    number ++ " | ".toList ++ Text.trimEnd (p.text.drop indentation),
    margin ++ ' ' :: arrow]

def report (e : Error) (source name : Text) : Text :=
  (e.reportLines source name).flatMap (· ++ ['\n'])

end Error

/-- How the line `before ++ after` is shown behind `label`, and what stands in `column`. The line is
shown without the spaces in front of it and the blanks at its end; the column is that of the first
character of `after`, or, if there is none, of nothing that is shown. -/
structure Text.Pointed (label before after shown : Text) (column : Nat) : Prop where
  line : shown = label ++ Text.trimEnd ((before ++ after).dropWhile (· = ' '))
  below : ∀ c rest, after = c :: rest → ∃ spaces kept, before = spaces ++ kept ∧
    (∀ x ∈ spaces, x = ' ') ∧ shown = label ++ kept ++ c :: Text.trimEnd rest ∧
    column = (label ++ kept).length
  behind : after = [] → shown.length ≤ column

end Calculator
