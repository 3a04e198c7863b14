import Calculator.Binding
import Calculator.Number.Arithmetic
import Calculator.Number.Factorial
import Calculator.Operator.Basic

/-!
# Applying operators

`Operator.apply` applies an operator to operands that have been evaluated. Assignments and prefix
updates write to their first operand and hand it back, the comma hands back its second operand,
and every other result is a fixed binding. Both operands of `||` and `&&` have been evaluated
before, so neither spares the effects of the second.
-/

namespace Calculator

structure Memory where
  store : Store
  factorials : Factorials

def Memory.initial : Memory :=
  ⟨.empty, .initial⟩

namespace Operator

/-- The value of a binary operator that writes nothing; `none` for all others. -/
def arithmetic? (op : Operator) (a b : Float) : Option Float :=
  match op with
  | or => some (if isTruthy a then a else b)
  | and => some (if isTruthy a then b else a)
  | bitOr => some (Word.ofFloat a ||| Word.ofFloat b).toFloat
  | bitXor => some (Word.ofFloat a ^^^ Word.ofFloat b).toFloat
  | bitAnd => some (Word.ofFloat a &&& Word.ofFloat b).toFloat
  | equals | strictEquals => some (ofBool (a == b))
  | notEquals | strictNotEquals => some (ofBool (a != b))
  | less => some (ofBool (decide (a < b)))
  | lessEquals => some (ofBool (decide (a ≤ b)))
  | greater => some (ofBool (decide (a > b)))
  | greaterEquals => some (ofBool (decide (a ≥ b)))
  | shl => some (Word.toFloat (Word.ofFloat a <<< shiftCount b))
  | shr => some (Word.toFloat ((Word.ofFloat a).sshiftRight (shiftCount b)))
  | ushr => some (Word.toFloatUnsigned (Word.ofFloat a >>> shiftCount b))
  | add => some (a + b)
  | sub => some (a - b)
  | mul => some (a * b)
  | div => some (a / b)
  | rem => some (remainder a b)
  | pow => some (power a b)
  | _ => none

/-- Writes `v` to the target and hands back `result`; a fixed target is a fault that names the
operator. -/
def update (op : Operator) (target : Binding) (v : Float) (result : Binding) (m : Memory) :
    Except Fault Binding × Memory :=
  match target.write v op.symbol m.store with
  | .ok store => (.ok result, { m with store })
  | .error fault => (.error fault, m)

def arityFault (op : Operator) (received : Nat) : Fault :=
  .invalidArity op.symbol op.arity received

def applyUnary (op : Operator) (operand : Binding) (m : Memory) : Except Fault Binding × Memory :=
  let v := operand.read m.store
  match op with
  | factorial =>
    let (result, factorials) := m.factorials.factorial v
    (.ok (.fixed result), { m with factorials })
  | plus => (.ok (.fixed v), m)
  | negate => (.ok (.fixed (-v)), m)
  | not => (.ok (.fixed (ofBool !(isTruthy v))), m)
  | bitNot => (.ok (.fixed (~~~ Word.ofFloat v).toFloat), m)
  | preIncrement => op.update operand (v + 1.0) operand m
  | preDecrement => op.update operand (v - 1.0) operand m
  | postIncrement => op.update operand (v + 1.0) (.fixed v) m
  | postDecrement => op.update operand (v - 1.0) (.fixed v) m
  | _ => (.error (op.arityFault 1), m)

def applyBinary (op : Operator) (left right : Binding) (m : Memory) :
    Except Fault Binding × Memory :=
  let a := left.read m.store
  let b := right.read m.store
  match op with
  | comma => (.ok right, m)
  | assign => op.update left b left m
  | _ =>
    match op.compoundBase? with
    | some base =>
      match base.arithmetic? a b with
      | some v => op.update left v left m
      | none => (.error (op.arityFault 2), m)
    | none =>
      match op.arithmetic? a b with
      | some v => (.ok (.fixed v), m)
      | none => (.error (op.arityFault 2), m)

/-- A fault changes nothing in the memory. -/
def apply (op : Operator) (operands : List Binding) (m : Memory) : Except Fault Binding × Memory :=
  if operands.length ≠ op.arity then (.error (op.arityFault operands.length), m)
  else
    match operands with
    | [operand] => op.applyUnary operand m
    | [left, right] => op.applyBinary left right m
    | _ => (.error (op.arityFault operands.length), m)

end Operator

end Calculator
