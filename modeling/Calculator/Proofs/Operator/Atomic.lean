import Calculator.Proofs.Number.Factorials
import Calculator.Proofs.Operator.Effect

/-!
# Applying an operator is atomic

An application either fails and changes nothing, or it has the effect that the values of its operands
ask for: at most the first operand is written, and factorials are only added
(`Operator.apply_atomic`).
-/

namespace Calculator

namespace Factorials

/-- What has been remembered stays where it is. -/
theorem extend_values {f : Factorials} {n : Nat} {x : Float} (h : f.values[n]? = some x) (k : Nat) :
    (f.extend k).values[n]? = some x := by
  induction k generalizing f with
  | zero => exact h
  | succ k ih =>
    obtain ⟨inside, -⟩ := Array.getElem?_eq_some_iff.mp h
    refine ih ?_
    rw [Array.getElem?_push, if_neg (Nat.ne_of_lt inside)]
    exact h

theorem factorial_values {f : Factorials} {n : Nat} {x : Float} (h : f.values[n]? = some x)
    (v : Float) : (f.factorial v).2.values[n]? = some x := by
  unfold factorial
  dsimp only
  split
  · exact h
  split
  · exact h
  · exact extend_values h _

end Factorials

namespace Operator

variable {op : Operator} {operands : List Binding} {m : Memory}

theorem apply_of_length_ne (h : operands.length ≠ op.arity) (m : Memory) :
    op.apply operands m = (.error (op.arityFault operands.length), m) := by
  unfold apply
  exact if_pos h

/-- With all its operands an operator is refused only where it would write to a fixed binding. -/
theorem not_permits_iff (h : operands.length = op.arity) :
    ¬ op.Permits (operands.map Binding.isVariable) ↔
      Grammar.writes op ∧ ∃ v, operands.head? = some (.fixed v) := by
  obtain ⟨b, rest, rfl⟩ : ∃ b rest, operands = b :: rest := by
    refine List.exists_cons_of_ne_nil fun none => ?_
    rw [none] at h
    rcases op.arity_eq with one | two
    · rw [one] at h; cases h
    · rw [two] at h; cases h
  unfold Permits
  cases b <;> simp [Binding.isVariable]

/-- What an effect writes and hands back, by the operator. -/
structure Shapes (op : Operator) (e : Effect) : Prop where
  written : e.written?.isSome = Grammar.writes op
  first : Grammar.writes op → op.placement ≠ .afterVariable → e.returned = .first
  second : op = comma → e.returned = .second
  value : op ≠ comma → (Grammar.writes op → op.placement = .afterVariable) →
    ∃ v, e.returned = .value v

theorem shapes_effect? {factorialOf : Float → Float} {values : List Float} {e : Effect}
    (h : op.effect? factorialOf values = some e) : op.Shapes e := by
  match values with
  | [] | _ :: _ :: _ :: _ => cases h
  | [_] | [_, _] =>
    cases op <;> first
      | exact Option.some.inj h ▸ ⟨rfl, fun _ _ => rfl, fun same => (nomatch same),
          fun _ behind => absurd (behind rfl) (by decide)⟩
      | exact Option.some.inj h ▸ ⟨rfl, fun hw => absurd hw (by decide), fun _ => rfl,
          fun other => absurd rfl other⟩
      | exact Option.some.inj h ▸ ⟨rfl, fun hw => absurd hw (by decide), fun same => (nomatch same),
          fun _ _ => ⟨_, rfl⟩⟩
      | exact Option.some.inj h ▸ ⟨rfl, fun _ behind => absurd rfl behind, fun same => (nomatch same),
          fun _ _ => ⟨_, rfl⟩⟩
      | cases h

theorem remember_of_ne (h : op ≠ factorial) (f : Factorials) (values : List Float) :
    op.remember f values = f := by
  unfold remember
  split
  · rw [if_neg h]
  · rfl

theorem remember_values {f : Factorials} {n : Nat} {x : Float} (h : f.values[n]? = some x)
    (op : Operator) (values : List Float) : (op.remember f values).values[n]? = some x := by
  unfold remember
  split
  · split
    · exact Factorials.factorial_values h _
    · exact h
  · exact h

theorem returned_first {e : Effect} {b : Binding} (h : op.Shapes e) (hw : Grammar.writes op)
    (place : op.placement ≠ .afterVariable) (returned : e.returned.binding? operands = some b) :
    operands.head? = some b := by
  rw [h.first hw place] at returned
  rw [List.head?_eq_getElem?]
  exact returned

theorem returned_second {e : Effect} {b : Binding} (h : op.Shapes e) (hc : op = comma)
    (returned : e.returned.binding? operands = some b) : operands[1]? = some b := by
  rw [h.second hc] at returned
  exact returned

theorem returned_value {e : Effect} {b : Binding} (h : op.Shapes e) (hc : op ≠ comma)
    (behind : Grammar.writes op → op.placement = .afterVariable)
    (returned : e.returned.binding? operands = some b) : ∃ v, b = .fixed v := by
  obtain ⟨v, value⟩ := h.value hc behind
  rw [value] at returned
  exact ⟨v, (Option.some.inj returned).symm⟩

/-- Nothing but the first operand of an operator that writes can be written. -/
theorem read_store_of_unwritten {e : Effect} {s : Store} {c : Cell} (h : op.Shapes e)
    (other : ¬ (Grammar.writes op ∧ operands.head? = some (.cell c))) :
    (e.store operands s).read c = s.read c := by
  by_cases hw : Grammar.writes op
  · exact Effect.read_store_of_ne fun head => other ⟨hw, head⟩
  · have none : e.written? = none := by
      rw [← Option.not_isSome_iff_eq_none, h.written]
      exact hw
    unfold Effect.store
    rw [none]

/-- The first operand gets the value that the effect writes. -/
theorem read_store_of_written {e : Effect} {s : Store} {c : Cell} (h : op.Shapes e)
    (hw : Grammar.writes op) (head : operands.head? = some (.cell c)) (holds : s.Holds c) :
    e.written? = some ((e.store operands s).read c) := by
  obtain ⟨v, written⟩ := Option.isSome_iff_exists.mp (h.written.trans hw)
  obtain ⟨rest, rfl⟩ := List.head?_eq_some_iff.mp head
  unfold Effect.store
  rw [written]
  exact congrArg some (holds.read_write v).symm

/-- An application fails if the number of operands is not that of the operator, and else if the
operator writes and its first operand is fixed; it has then changed nothing. Otherwise it succeeds.
Then nothing has changed but the first operand of an operator that writes, which holds the value
computed from the operands as they were, and the factorials, to which only the factorial adds. The
result is the first operand itself for assignments and updates before it, the second itself for the
comma, and fixed for all others. -/
theorem apply_atomic (op : Operator) (operands : List Binding) (m : Memory) :
    let r := op.apply operands m
    let refused := Grammar.writes op ∧ ∃ v, operands.head? = some (.fixed v)
    (r.1 = .error (op.arityFault operands.length) ↔ operands.length ≠ op.arity) ∧
    (r.1 = .error (.immutableBinding op.symbol) ↔ operands.length = op.arity ∧ refused) ∧
    (∀ f, r.1 = .error f →
      (f = op.arityFault operands.length ∨ f = .immutableBinding op.symbol) ∧ r.2 = m) ∧
    (operands.length = op.arity → ¬ refused → ∃ b e, r.1 = .ok b ∧
      op.effect? (fun v => (m.factorials.factorial v).1) (operands.map (·.read m.store)) = some e ∧
      e.returned.binding? operands = some b ∧
      (∀ c, r.2.store.Holds c ↔ m.store.Holds c) ∧
      (∀ c, ¬ (Grammar.writes op ∧ operands.head? = some (.cell c)) →
        r.2.store.read c = m.store.read c) ∧
      (∀ c, Grammar.writes op → operands.head? = some (.cell c) → m.store.Holds c →
        e.written? = some (r.2.store.read c)) ∧
      (op ≠ factorial → r.2.factorials = m.factorials) ∧
      (∀ (n : Nat) x, m.factorials.values[n]? = some x → r.2.factorials.values[n]? = some x) ∧
      (Grammar.writes op → op.placement ≠ .afterVariable → operands.head? = some b) ∧
      (op = comma → operands[1]? = some b) ∧
      (op ≠ comma → (Grammar.writes op → op.placement = .afterVariable) → ∃ v, b = .fixed v)) := by
  intro r refused
  by_cases hl : operands.length = op.arity
  case neg =>
    have failed : r = (.error (op.arityFault operands.length), m) := apply_of_length_ne hl m
    rw [failed]
    refine ⟨iff_of_true rfl hl, ⟨fun same => (nomatch same), fun all => absurd all.1 hl⟩,
      fun f same => ⟨.inl (Except.error.inj same).symm, rfl⟩, fun all => absurd all hl⟩
  by_cases hp : op.Permits (operands.map Binding.isVariable)
  case neg =>
    have failed : r = (.error (.immutableBinding op.symbol), m) := apply_of_not_permits hl hp m
    have why : refused := (not_permits_iff hl).mp hp
    rw [failed]
    exact ⟨⟨fun same => (nomatch same), fun more => absurd hl more⟩, iff_of_true rfl ⟨hl, why⟩,
      fun f same => ⟨.inr (Except.error.inj same).symm, rfl⟩, fun _ free => absurd why free⟩
  obtain ⟨e, b, does⟩ := apply_eq_effect hl hp m
  have shapes := shapes_effect? does.effect
  have done : r = _ := does.apply
  rw [done]
  have free : ¬ refused := fun why => (not_permits_iff hl).mpr why hp
  refine ⟨⟨fun same => (nomatch same), fun more => absurd hl more⟩,
    ⟨fun same => (nomatch same), fun all => absurd all.2 free⟩, fun f same => (nomatch same),
    fun _ _ => ⟨b, e, rfl, does.effect, does.returned, fun c => Effect.holds_store, ?_⟩⟩
  refine ⟨fun c other => read_store_of_unwritten shapes other,
    fun c hw head holds => read_store_of_written shapes hw head holds,
    fun other => remember_of_ne other _ _, fun n x h => remember_values h op _, ?_⟩
  exact ⟨fun hw place => returned_first shapes hw place does.returned,
    fun same => returned_second shapes same does.returned,
    fun other behind => returned_value shapes other behind does.returned⟩

end Operator

end Calculator
