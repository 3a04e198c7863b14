import Calculator.Operator.Effect
import Calculator.Proofs.Operator.Apply

/-!
# An operator has its effect

An operator whose first operand may be written has the effect that the values of its operands ask
for (`Operator.apply_eq_effect`), and any other application changes nothing.
-/

namespace Calculator

namespace Effect

variable {e : Effect} {operands : List Binding} {s : Store}

theorem holds_store {c : Cell} : (e.store operands s).Holds c ↔ s.Holds c := by
  unfold store
  split
  · exact Store.holds_write
  · exact Iff.rfl

/-- Only the first operand is written. -/
theorem read_store_of_ne {c : Cell} (h : operands.head? ≠ some (.cell c)) :
    (e.store operands s).read c = s.read c := by
  unfold store
  split
  case h_1 v d rest _ =>
    have other : d ≠ c := by
      rintro rfl
      exact h rfl
    exact Store.read_write_of_ne other v
  case h_2 => rfl

end Effect

namespace Operator

/-- An operator with all its operands does `e`, and hands back `b`. -/
structure Does (op : Operator) (operands : List Binding) (m : Memory) (e : Effect) (b : Binding) :
    Prop where
  effect : op.effect? (fun v => (m.factorials.factorial v).1) (operands.map (·.read m.store)) = some e
  returned : e.returned.binding? operands = some b
  apply : op.apply operands m = (.ok b, ⟨e.store operands m.store,
    op.remember m.factorials (operands.map (·.read m.store))⟩)

variable {op : Operator}

theorem does_unary (h : op.arity = 1) {operand : Binding} (hp : op.Permits [operand.isVariable])
    (m : Memory) : ∃ e b, op.Does [operand] m e b := by
  suffices ∃ e b, op.effect? (fun v => (m.factorials.factorial v).1) [operand.read m.store] = some e ∧
      e.returned.binding? [operand] = some b ∧ op.applyUnary operand m =
        (.ok b, ⟨e.store [operand] m.store, op.remember m.factorials [operand.read m.store]⟩) by
    obtain ⟨e, b, effect, returned, applied⟩ := this
    exact ⟨e, b, effect, returned, (apply_unary h operand m).trans applied⟩
  cases operand with
  | fixed v =>
    cases op <;> first
      | exact ⟨_, _, rfl, rfl, rfl⟩
      | exact absurd h (by decide)
      | exact absurd hp (not_permits_cons_false rfl [])
  | cell c =>
    cases op <;> first | exact ⟨_, _, rfl, rfl, rfl⟩ | exact absurd h (by decide)

theorem update_eq {target : Binding} (h : target.isVariable) (more : List Binding) (v : Float)
    (result : Binding) (returned : Returned) (m : Memory) : op.update target v result m =
      (.ok result, ⟨Effect.store ⟨some v, returned⟩ (target :: more) m.store, m.factorials⟩) := by
  cases target with
  | fixed x => cases h
  | cell c => rfl

theorem does_binary (h : op.arity = 2) {left right : Binding}
    (hp : op.Permits [left.isVariable, right.isVariable]) (m : Memory) :
    ∃ e b, op.Does [left, right] m e b := by
  have applied := apply_binary h left right m
  have writable (hw : Grammar.writes op) : left.isVariable := Option.some.inj (hp hw)
  by_cases hc : op = comma
  · subst hc
    exact ⟨_, _, rfl, rfl, applied⟩
  by_cases ha : op = assign
  · subst ha
    refine ⟨_, _, rfl, rfl, applied.trans ?_⟩
    exact update_eq (writable rfl) [right] _ left .first m
  cases hbase : op.compoundBase? with
  | some base =>
    obtain ⟨v, hv⟩ := arithmetic?_compoundBase? hbase (left.read m.store) (right.read m.store)
    have hw : Grammar.writes op := by cases op <;> cases hbase <;> rfl
    refine ⟨⟨some v, .first⟩, left, by simp [effect?, hbase, hv], rfl, applied.trans ?_⟩
    rw [show op.applyBinary left right m = op.update left v left m by simp [applyBinary, hbase, hv]]
    exact update_eq (writable hw) [right] v left .first m
  | none =>
    have hw : Grammar.writes op = false := by
      cases op <;> first | rfl | exact absurd rfl ha | exact absurd h (by decide) | cases hbase
    obtain ⟨v, hv⟩ := arithmetic?_of_arity h hw hc (left.read m.store) (right.read m.store)
    refine ⟨⟨none, .value v⟩, .fixed v, by simp [effect?, hbase, hv], rfl, applied.trans ?_⟩
    simp [applyBinary, hbase, hv, Effect.store, remember]

theorem apply_eq_effect {operands : List Binding} (h : operands.length = op.arity)
    (hp : op.Permits (operands.map Binding.isVariable)) (m : Memory) :
    ∃ e b, op.Does operands m e b := by
  rcases eq_of_length h with ⟨h1, x, rfl⟩ | ⟨h2, x, y, rfl⟩
  · exact does_unary h1 hp m
  · exact does_binary h2 hp m

theorem written?_of_not_writes (hw : Grammar.writes op = false) {factorialOf : Float → Float}
    {values : List Float} {e : Effect} (h : op.effect? factorialOf values = some e) :
    e.written? = none := by
  match values with
  | [] | _ :: _ :: _ :: _ => cases h
  | [_] | [_, _] =>
    cases op <;> first
      | exact absurd hw (by decide)
      | exact Option.some.inj h ▸ rfl
      | cases h

end Operator

end Calculator
