import Calculator.Environment
import Calculator.Grammar.Rules
import Calculator.Number.Decimal
import Calculator.Operator.Apply

/-!
# Sessions

A `Session` holds what outlives one evaluation: the names, the cells and the factorials computed
so far. `Session.evaluate` runs the rules of the grammar on a text, and every operator is applied
as soon as its operands have been read. What was done before an error stays done.
-/

namespace Calculator

structure Session where
  environment : Environment
  memory : Memory

namespace Session

def initial : Session :=
  ⟨.initial, .initial⟩

def lookup (s : Session) (name : Text) : Binding × Session :=
  let (b, environment, store) := s.environment.lookup name s.memory.store
  (b, ⟨environment, { s.memory with store }⟩)

def apply (s : Session) (op : Operator) (operands : List Binding) :
    Except Fault Binding × Session :=
  let (result, memory) := op.apply operands s.memory
  (result, { s with memory })

def actions : Grammar.Actions Session Binding where
  number t := (Decimal.read? t).map fun d => .fixed d.toFloat
  name t s := s.lookup t
  isVariable := Binding.isVariable
  apply op _ operands s := s.apply op operands

def read (s : Session) (b : Binding) : Float :=
  b.read s.memory.store

/-- The value of the last statement. -/
def evaluate (s : Session) (source : Text) : Except Error Float × Session :=
  let r := Grammar.statements actions s (.start source)
  (r.outcome.map fun b => r.state.read b.last, r.state)

/-- The value of a name, which is not declared by this. -/
def get? (s : Session) (name : Text) : Option Float :=
  (s.environment.find? name).map s.read

/-- Assigns to a name as `=` does; the name may be any text. -/
def set (s : Session) (name : Text) (v : Float) : Except Error Unit × Session :=
  let (b, s) := s.lookup name
  match b.write v Operator.assign.symbol s.memory.store with
  | .ok store => (.ok (), { s with memory := { s.memory with store } })
  | .error fault => (.error ⟨fault, 0⟩, s)

end Session

/-- The value of a text in a session of its own. -/
def evaluate (source : Text) : Except Error Float :=
  (Session.initial.evaluate source).1

end Calculator
