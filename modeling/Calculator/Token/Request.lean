import Calculator.Token.Language
import Calculator.Token.Cursor

/-!
# Requests

What a cursor can be asked for, and what becomes of it and of the tokens it hands out over a number
of requests.
-/

namespace Calculator

/-- Asks for the longest token of a kind, which is passed if `accept` agrees to it. -/
structure Request where
  kind : TokenKind
  accept : Text → Bool

namespace Cursor

/-- The token that is handed out, if any, and the cursor behind it. -/
def answer (c : Cursor) (r : Request) : Option Text × Cursor :=
  match c.takeIf? r.kind r.accept with
  | some (m, d) => (some m, d)
  | none => (none, c)

/-- The tokens that requests hand out, one after the other, and the cursor behind them. -/
def serve (c : Cursor) : List Request → List Text × Cursor
  | [] => ([], c)
  | r :: rest =>
    let (m?, d) := c.answer r
    let (ms, e) := d.serve rest
    (m?.toList ++ ms, e)

end Cursor

/-- The text consists of these tokens, with blanks or nothing behind each of them. -/
inductive Text.Consists : List Text → Text → Prop
  | nil : Consists [] []
  | cons {m blank t : Text} {ms : List Text} : Token.AllBlank blank → Consists ms t →
      Consists (m :: ms) (m ++ blank ++ t)

end Calculator
