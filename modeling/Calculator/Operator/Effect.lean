import Calculator.Operator.Apply

/-!
# Effects of operators

`Operator.effect?` says what an operator does by the values of its operands alone: what it writes to
the first of them and what it hands back. Which cells the operands are does not enter.
-/

namespace Calculator

inductive Returned where
  | first
  | second
  | value (v : Float)

/-- `none` if there is no such operand. -/
def Returned.binding? (operands : List Binding) : Returned → Option Binding
  | first => operands[0]?
  | second => operands[1]?
  | value v => some (.fixed v)

structure Effect where
  /-- The new value of the first operand. -/
  written? : Option Float
  returned : Returned

def Effect.store (e : Effect) (operands : List Binding) (s : Store) : Store :=
  match e.written?, operands with
  | some v, .cell c :: _ => s.write c v
  | _, _ => s

namespace Operator

/-- The effect on operands with the given values; `none` for a wrong number of them. -/
def effect? (op : Operator) (factorialOf : Float → Float) : List Float → Option Effect
  | [v] =>
    match op with
    | factorial => some ⟨none, .value (factorialOf v)⟩
    | plus => some ⟨none, .value v⟩
    | negate => some ⟨none, .value (-v)⟩
    | not => some ⟨none, .value (ofBool !(isTruthy v))⟩
    | bitNot => some ⟨none, .value (~~~ Word.ofFloat v).toFloat⟩
    | preIncrement => some ⟨some (v + 1.0), .first⟩
    | preDecrement => some ⟨some (v - 1.0), .first⟩
    | postIncrement => some ⟨some (v + 1.0), .value v⟩
    | postDecrement => some ⟨some (v - 1.0), .value v⟩
    | _ => none
  | [a, b] =>
    match op with
    | comma => some ⟨none, .second⟩
    | assign => some ⟨some b, .first⟩
    | _ =>
      match op.compoundBase? with
      | some base => (base.arithmetic? a b).map fun v => ⟨some v, .first⟩
      | none => (op.arithmetic? a b).map fun v => ⟨none, .value v⟩
  | _ => none

/-- The factorials after an operator. -/
def remember (op : Operator) (f : Factorials) : List Float → Factorials
  | [v] => if op = factorial then (f.factorial v).2 else f
  | _ => f

end Operator

end Calculator
