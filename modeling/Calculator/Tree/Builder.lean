import Calculator.Tree.Basic

/-!
# Reading trees

The rules of the grammar with actions that build trees and have no effects: a text is either a
list of trees or a syntax error.
-/

namespace Calculator.Tree

def builder : Grammar.Actions Unit Tree where
  number t := (Decimal.read? t).map fun _ => .number t
  name t s := (.name t, s)
  isVariable t := decide t.IsVariable
  apply op offset operands s :=
    match operands with
    | [operand] => (.ok (.unary op offset operand), s)
    | [left, right] => (.ok (.binary op offset left right), s)
    | _ => (.error (op.arityFault operands.length), s)

/-- The trees of the statements of a text, in order. -/
def read (source : Text) : Except Error (List Tree) :=
  (Grammar.statements builder () (.start source)).outcome.map fun b =>
    (b.last :: b.earlier).reverse

end Calculator.Tree
