import Calculator.Text.Basic
import Calculator.Text.Cut

/-!
# Lines

`Text.lines` cuts a text after each line feed, and `Text.lineAt?` finds the line that holds an
offset.
-/

namespace Calculator

namespace Text

/-- The lines of a text with their line feeds; the empty text has none. -/
def lines (t : Text) : List Text :=
  cutAfter '\n' t

end Text

structure LinePosition where
  /-- The first line is line `1`. -/
  number : Nat
  text : Text
  /-- Bytes of the line before the place. -/
  offset : Nat
deriving DecidableEq, Repr

namespace Text

/-- Counts on from line `number`; only the last line also holds the offset at its end. -/
def findLine (number : Nat) : List Text → Nat → LinePosition
  | [], _ => ⟨number, [], 0⟩
  | [line], n => ⟨number, line, n⟩
  | line :: rest, n =>
    if n < extent line then ⟨number, line, n⟩ else findLine (number + 1) rest (n - extent line)

/-- The line that holds offset `n`; `none` behind the end of the text. -/
def lineAt? (t : Text) (n : Nat) : Option LinePosition :=
  if extent t < n then none else some (findLine 1 (lines t) n)

/-- The lines of a text; the empty text has one, which is empty. -/
def rows (t : Text) : List Text :=
  if t = [] then [[]] else lines t

/-- The longest front of at most `n` bytes. -/
def upTo : Nat → Text → Text
  | _, [] => []
  | n, c :: t => if c.utf8Size ≤ n then c :: upTo (n - c.utf8Size) t else []

end Text

/-- `p` is the place of offset `n` in `t`, in the line between `earlier` and `later`. The end of a line
is a place of the next line; only the end of the text is a place of the line before it. -/
structure LinePosition.IsAt (t : Text) (n : Nat) (earlier later : List Text) (p : LinePosition) :
    Prop where
  rows : t.rows = earlier ++ p.text :: later
  number : p.number = earlier.length + 1
  offset : n = Text.extent earlier.flatten + p.offset
  inside : p.offset < Text.extent p.text ∨ later = [] ∧ p.offset = Text.extent p.text

end Calculator
