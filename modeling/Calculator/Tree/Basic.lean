import Calculator.Session

/-!
# Expression trees

A `Tree` is an expression without its blanks and parentheses. `Tree.interpret` walks it in a
session, left operand before right, and applies each operator after all its operands: a variable
is an operand by its cell and read at that moment.
-/

namespace Calculator

inductive Tree where
  | number (text : Text)
  | name (text : Text)
  /-- An operator at an offset of the text, with one operand. -/
  | unary (op : Operator) (offset : Nat) (operand : Tree)
  | binary (op : Operator) (offset : Nat) (left right : Tree)
deriving DecidableEq, Repr

/-- The value of a numeral, and NaN of any other text. -/
def Decimal.valueOf (t : Text) : Float :=
  ((Decimal.read? t).map Decimal.toFloat).getD notANumber

def Session.applyAt (s : Session) (op : Operator) (offset : Nat) (operands : List Binding) :
    Except Error Binding × Session :=
  match s.apply op operands with
  | (.ok b, s) => (.ok b, s)
  | (.error fault, s) => (.error ⟨fault, offset⟩, s)

namespace Tree

def interpret : Tree → Session → Except Error Binding × Session
  | number t, s => (.ok (.fixed (Decimal.valueOf t)), s)
  | name t, s =>
    match s.lookup t with
    | (b, s) => (.ok b, s)
  | unary op offset operand, s =>
    match operand.interpret s with
    | (.ok b, s) => s.applyAt op offset [b]
    | (.error e, s) => (.error e, s)
  | binary op offset left right, s =>
    match left.interpret s with
    | (.ok a, s) =>
      match right.interpret s with
      | (.ok b, s) => s.applyAt op offset [a, b]
      | (.error e, s) => (.error e, s)
    | (.error e, s) => (.error e, s)

/-- The trees one after the other, up to the first error; the binding is that of the last. -/
def interpretAll (b : Binding) : List Tree → Session → Except Error Binding × Session
  | [], s => (.ok b, s)
  | t :: rest, s =>
    match t.interpret s with
    | (.ok b, s) => interpretAll b rest s
    | (.error e, s) => (.error e, s)

/-- An update stands behind a name that is not a constant. -/
def IsVariable : Tree → Prop
  | name t => ¬ Environment.isConstant t
  | _ => False

instance : DecidablePred IsVariable
  | name t => inferInstanceAs (Decidable (¬ Environment.isConstant t))
  | number _ | unary .. | binary .. => inferInstanceAs (Decidable False)

/-- Every operator has as many operands as its row of the table says. -/
def WellFormed : Tree → Prop
  | number t => TokenKind.number.longest? t = some t
  | name t => TokenKind.name.longest? t = some t
  | unary op _ operand =>
    op.arity = 1 ∧ operand.WellFormed ∧ (op.placement = .afterVariable → operand.IsVariable)
  | binary op _ left right => op.arity = 2 ∧ left.WellFormed ∧ right.WellFormed

end Tree

end Calculator
