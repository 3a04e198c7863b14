import Calculator.Tree.Basic

/-!
# Writing trees

`Tree.print` writes a tree with a space between any two tokens and with parentheses only where the
levels ask for them. `Tree.printFull` puts parentheses around every subtree.
-/

namespace Calculator.Tree

/-- How tightly a place of the grammar binds: the levels, then the operand of an operator before it,
then the variable of an update. -/
abbrev Tightness := Nat

def termTightness : Tightness := 14

def atomTightness : Tightness := 15

/-- How tightly the operator of a tree binds; a tree without one, and an update, as tightly as can
be. -/
def tightness : Tree → Tightness
  | number _ | name _ => atomTightness
  | unary op .. | binary op .. =>
    match op.placement with
    | .beforeOperand => termTightness
    | .afterVariable => atomTightness
    | .atLevel level => level.rank

/-- The tightness that the left operand of a binary operator must have. -/
def leftTightness (op : Operator) (own : Tightness) : Tightness :=
  match op.associativity with
  | .left => own
  | .right => own + 1

def rightTightness (op : Operator) (own : Tightness) : Tightness :=
  match op.associativity with
  | .left => own + 1
  | .right => own

def parenthesize (tokens : List Text) : List Text :=
  ['('] :: tokens ++ [[')']]

/-- The tokens of a tree, with parentheses around each operand that binds less tightly than its
place asks. -/
def tokens : Tree → List Text
  | number t | name t => [t]
  | unary op _ operand =>
    match op.placement with
    | .beforeOperand => op.symbol :: within termTightness operand.tightness operand.tokens
    | .afterVariable => within atomTightness operand.tightness operand.tokens ++ [op.symbol]
    | .atLevel level => within level.rank operand.tightness operand.tokens ++ [op.symbol]
  | binary op offset left right =>
    let own := (binary op offset left right).tightness
    within (leftTightness op own) left.tightness left.tokens ++
      op.symbol :: within (rightTightness op own) right.tightness right.tokens
where
  within (place own : Tightness) (tokens : List Text) : List Text :=
    if own < place then parenthesize tokens else tokens

/-- The tokens of a tree, with parentheses around every subtree but the variable of an update. -/
def fullTokens : Tree → List Text
  | number t | name t => parenthesize [t]
  | unary op _ operand =>
    match op.placement, operand with
    | .beforeOperand, _ => parenthesize (op.symbol :: operand.fullTokens)
    | .afterVariable, name t => parenthesize [t, op.symbol]
    | _, _ => parenthesize (operand.fullTokens ++ [op.symbol])
  | binary op _ left right =>
    parenthesize (left.fullTokens ++ op.symbol :: right.fullTokens)

def join (tokens : List Text) : Text :=
  [' '].intercalate tokens

def print (t : Tree) : Text :=
  join t.tokens

def printFull (t : Tree) : Text :=
  join t.fullTokens

end Calculator.Tree
