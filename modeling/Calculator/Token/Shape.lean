import Calculator.Token.Kind

/-!
# Shapes of tokens

Regular expressions for the kinds of tokens that are not given by a list. An expression is matched at
the start of a text by trying its ways one after the other: a first alternative before the second one,
an optional part before its absence, and a repetition as often as it goes. `Shape.find?` ends at the
first way, which need not be the longest one.
-/

namespace Calculator

inductive Shape where
  | char (accepts : Char → Bool)
  | seq (a b : Shape)
  | either (a b : Shape)
  | optional (a : Shape)
  | many (a : Shape)

namespace Shape

/-- What is left behind any number of rounds, most rounds first; a round that passes nothing is not
made. -/
def afterRounds (round : Text → List Text) (t : Text) : List Text :=
  ((round t).flatMap fun u => if u.length < t.length then afterRounds round u else []) ++ [t]
termination_by t.length

/-- What is left behind each way to match, in the order in which the ways are tried. -/
def rests : Shape → Text → List Text
  | char _, [] => []
  | char accepts, c :: t => if accepts c then [t] else []
  | seq a b, t => (a.rests t).flatMap b.rests
  | either a b, t => a.rests t ++ b.rests t
  | optional a, t => a.rests t ++ [t]
  | many a, t => afterRounds a.rests t

/-- What is left behind the first way to match. -/
def rest? (e : Shape) (t : Text) : Option Text :=
  (e.rests t).head?

/-- What the first way matches. -/
def find? (e : Shape) (t : Text) : Option Text :=
  (e.rest? t).map fun rest => t.take (t.length - rest.length)

def oneOrMore (e : Shape) : Shape :=
  seq e (many e)

def just (c : Char) : Shape :=
  char (c == ·)

def digit : Shape :=
  char Char.isDigit

/-! ### The kinds of tokens -/

/-- The expression `\s+`. -/
def blank : Shape :=
  oneOrMore (char Text.isBlank)

/-- The expression `\.?[0-9]*`. -/
def fraction : Shape :=
  seq (optional (just '.')) (many digit)

/-- The expression `[0-9]+\.?[0-9]*|\.[0-9]+`. -/
def significand : Shape :=
  either (seq (oneOrMore digit) fraction) (seq (just '.') (oneOrMore digit))

/-- The expression `[eE][0-9]+`. -/
def scale : Shape :=
  seq (char fun c => c == 'e' || c == 'E') (oneOrMore digit)

/-- The expression `(?:[0-9]+\.?[0-9]*|\.[0-9]+)(?:[eE][0-9]+)?`. -/
def number : Shape :=
  seq significand (optional scale)

/-- The expression `[a-zA-Z_$][a-zA-Z0-9_$]*`. -/
def name : Shape :=
  seq (char Token.isNameStart) (many (char Token.isNamePart))

/-- The expression `\s*;`. -/
def spacedSemicolon : Shape :=
  seq (many (char Text.isBlank)) (just ';')

/-- The expression `;(?:\s*;)*`. -/
def separator : Shape :=
  seq (just ';') (many spacedSemicolon)

end Shape

/-- The expression for a kind of token; the kinds that are lists of symbols have none. -/
def TokenKind.shape? : TokenKind → Option Shape
  | blank => some .blank
  | number => some .number
  | name => some .name
  | openParen => some (.just '(')
  | closeParen => some (.just ')')
  | separator => some .separator
  | beforeOperand | afterVariable | operator => none

end Calculator
