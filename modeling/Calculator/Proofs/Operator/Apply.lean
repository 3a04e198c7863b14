import Calculator.Grammar.Derivation
import Calculator.Operator.Apply

/-!
# What an operator does with its operands

With as many operands as its row of the table says, an operator fails only where it writes to a
fixed binding, and then changes nothing. `yieldsVariable` tells when it hands back a variable. Both
depend on which operands are variables and on nothing else.
-/

namespace Calculator.Operator

open Grammar (writes)

/-- Whether the result is a variable, by whether the operands are. -/
def yieldsVariable (op : Operator) : List Bool → Bool
  | [_] => writes op && op.placement = .beforeOperand
  | [_, right] => writes op || (op = comma && right)
  | _ => false

/-- The first operand may be written, if the operator writes. -/
def Permits (op : Operator) (operands : List Bool) : Prop :=
  writes op → operands.head? = some true

instance (op : Operator) (operands : List Bool) : Decidable (op.Permits operands) :=
  inferInstanceAs (Decidable (_ → _))

theorem permits_cons_true (op : Operator) (operands : List Bool) : op.Permits (true :: operands) :=
  fun _ => rfl

theorem not_permits_cons_false {op : Operator} (hw : writes op) (operands : List Bool) :
    ¬ op.Permits (false :: operands) :=
  fun hp => Bool.false_ne_true (Option.some.inj (hp hw))

theorem permits_of_not_writes {op : Operator} (hw : writes op = false) (operands : List Bool) :
    op.Permits operands :=
  fun h => absurd (hw.symm.trans h) Bool.false_ne_true

theorem arithmetic?_compoundBase? {op base : Operator} (h : op.compoundBase? = some base)
    (a b : Float) : ∃ v, base.arithmetic? a b = some v := by
  cases op <;> cases h <;> exact ⟨_, rfl⟩

/-- Every other operator of two operands has a value of its own, the comma and `=` apart. -/
theorem arithmetic?_of_arity {op : Operator} (h : op.arity = 2) (hw : writes op = false)
    (hc : op ≠ comma) (a b : Float) : ∃ v, op.arithmetic? a b = some v := by
  cases op <;> first | exact ⟨_, rfl⟩ | exact absurd h (by decide) | exact absurd hw (by decide) |
    exact absurd rfl hc

theorem apply_unary {op : Operator} (h : op.arity = 1) (operand : Binding) (m : Memory) :
    op.apply [operand] m = op.applyUnary operand m := by
  rw [apply, if_neg (by simp [h])]

theorem apply_binary {op : Operator} (h : op.arity = 2) (left right : Binding) (m : Memory) :
    op.apply [left, right] m = op.applyBinary left right m := by
  rw [apply, if_neg (by simp [h])]

theorem applyUnary_of_permits {op : Operator} (h : op.arity = 1) {operand : Binding}
    (hp : op.Permits [operand.isVariable]) (m : Memory) :
    ∃ b m', op.applyUnary operand m = (.ok b, m') ∧
      b.isVariable = op.yieldsVariable [operand.isVariable] := by
  cases operand with
  | fixed v =>
    cases op <;> first
      | exact ⟨_, _, rfl, rfl⟩
      | exact absurd h (by decide)
      | exact absurd hp (not_permits_cons_false rfl [])
  | cell c =>
    cases op <;> first | exact ⟨_, _, rfl, rfl⟩ | exact absurd h (by decide)

theorem applyUnary_of_not_permits {op : Operator} (h : op.arity = 1) {operand : Binding}
    (hp : ¬ op.Permits [operand.isVariable]) (m : Memory) :
    op.applyUnary operand m = (.error (.immutableBinding op.symbol), m) := by
  cases operand with
  | fixed v =>
    cases op <;> first
      | rfl
      | exact absurd h (by decide)
      | exact absurd (permits_of_not_writes rfl _) hp
  | cell c => exact absurd (permits_cons_true op []) hp

/-- The operators of two operands, by what they do with the first. -/
theorem applyBinary_cases {op : Operator} (h : op.arity = 2) (left right : Binding) (m : Memory) :
    (writes op = true ∧ ∃ v, op.applyBinary left right m = op.update left v left m) ∨
    (writes op = false ∧ op = comma ∧ op.applyBinary left right m = (.ok right, m)) ∨
    (writes op = false ∧ op ≠ comma ∧ ∃ v, op.applyBinary left right m = (.ok (.fixed v), m)) := by
  by_cases hc : op = comma
  · subst hc
    exact .inr (.inl ⟨rfl, rfl, rfl⟩)
  by_cases ha : op = assign
  · subst ha
    exact .inl ⟨rfl, _, rfl⟩
  cases hbase : op.compoundBase? with
  | some base =>
    obtain ⟨v, hv⟩ := arithmetic?_compoundBase? hbase (left.read m.store) (right.read m.store)
    have hw : writes op = true := by cases op <;> cases hbase <;> rfl
    exact .inl ⟨hw, v, by simp [applyBinary, hbase, hv]⟩
  | none =>
    have hw : writes op = false := by
      cases op <;> first | rfl | exact absurd rfl ha | exact absurd h (by decide) | cases hbase
    obtain ⟨v, hv⟩ := arithmetic?_of_arity h hw hc (left.read m.store) (right.read m.store)
    exact .inr (.inr ⟨hw, hc, v, by simp [applyBinary, hbase, hv]⟩)

theorem applyBinary_of_permits {op : Operator} (h : op.arity = 2) {left right : Binding}
    (hp : op.Permits [left.isVariable, right.isVariable]) (m : Memory) :
    ∃ b m', op.applyBinary left right m = (.ok b, m') ∧
      b.isVariable = op.yieldsVariable [left.isVariable, right.isVariable] := by
  rcases applyBinary_cases h left right m with ⟨hw, v, happly⟩ | ⟨hw, rfl, happly⟩ | ⟨hw, hc, v, happly⟩
  · cases left with
    | fixed x => exact absurd hp (not_permits_cons_false hw _)
    | cell c => exact ⟨_, _, happly, by simp [yieldsVariable, hw, Binding.isVariable]⟩
  · exact ⟨_, _, happly, by simp [yieldsVariable, hw]⟩
  · exact ⟨_, _, happly, by simp [yieldsVariable, hw, hc, Binding.isVariable]⟩

theorem applyBinary_of_not_permits {op : Operator} (h : op.arity = 2) {left right : Binding}
    (hp : ¬ op.Permits [left.isVariable, right.isVariable]) (m : Memory) :
    op.applyBinary left right m = (.error (.immutableBinding op.symbol), m) := by
  rcases applyBinary_cases h left right m with ⟨hw, v, happly⟩ | ⟨hw, -, -⟩ | ⟨hw, -⟩
  · cases left with
    | fixed x => exact happly
    | cell c => exact absurd (permits_cons_true op _) hp
  · exact absurd (permits_of_not_writes hw _) hp
  · exact absurd (permits_of_not_writes hw _) hp

/-! ### Operators with all their operands -/

theorem arity_eq (op : Operator) : op.arity = 1 ∨ op.arity = 2 := by
  cases op <;> decide

theorem eq_of_length {α : Type} {op : Operator} {operands : List α} (h : operands.length = op.arity) :
    (op.arity = 1 ∧ ∃ x, operands = [x]) ∨ (op.arity = 2 ∧ ∃ x y, operands = [x, y]) := by
  rcases op.arity_eq with h1 | h2
  · exact .inl ⟨h1, List.length_eq_one_iff.mp (h.trans h1)⟩
  · exact .inr ⟨h2, ⟨_, _, List.eq_getElem_of_length_eq_two operands (h.trans h2)⟩⟩

theorem apply_of_permits {op : Operator} {operands : List Binding}
    (h : operands.length = op.arity) (hp : op.Permits (operands.map Binding.isVariable))
    (m : Memory) : ∃ b m', op.apply operands m = (.ok b, m') ∧
      b.isVariable = op.yieldsVariable (operands.map Binding.isVariable) := by
  rcases eq_of_length h with ⟨h1, x, rfl⟩ | ⟨h2, x, y, rfl⟩
  · rw [apply_unary h1]
    exact applyUnary_of_permits h1 hp m
  · rw [apply_binary h2]
    exact applyBinary_of_permits h2 hp m

/-- A write to a fixed binding is the only fault, and it changes nothing. -/
theorem apply_of_not_permits {op : Operator} {operands : List Binding}
    (h : operands.length = op.arity) (hp : ¬ op.Permits (operands.map Binding.isVariable))
    (m : Memory) : op.apply operands m = (.error (.immutableBinding op.symbol), m) := by
  rcases eq_of_length h with ⟨h1, x, rfl⟩ | ⟨h2, x, y, rfl⟩
  · rw [apply_unary h1]
    exact applyUnary_of_not_permits h1 hp m
  · rw [apply_binary h2]
    exact applyBinary_of_not_permits h2 hp m

/-- With all its operands an operator can fail only because it writes. -/
theorem fault_of_apply {op : Operator} {operands : List Binding} {m : Memory} {f : Fault}
    (h : operands.length = op.arity) (failed : (op.apply operands m).1 = .error f) :
    writes op ∧ f = .immutableBinding op.symbol := by
  by_cases hp : op.Permits (operands.map Binding.isVariable)
  · obtain ⟨b, m', applied, -⟩ := apply_of_permits h hp m
    rw [applied] at failed
    cases failed
  · rw [apply_of_not_permits h hp] at failed
    refine ⟨?_, (Except.error.inj failed).symm⟩
    cases hw : writes op with
    | true => rfl
    | false => exact absurd (permits_of_not_writes hw _) hp

end Calculator.Operator
