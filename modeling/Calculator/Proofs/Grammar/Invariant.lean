import Calculator.Grammar.Log
import Calculator.Proofs.Grammar.Induction
import Calculator.Proofs.Operator.Apply
import Calculator.Proofs.Token.Operators

/-!
# Invariants of a run

What every token that is passed and every action keep true of the state and the cursor holds
wherever a run ends, and an error is one of those that they allow (`Invariant.run`). An operator is
applied some time after its symbol has been passed. Until then it is due, so that an invariant can
say of it what was known at its symbol.
-/

namespace Calculator

/-- What is missing at a cursor, as the fault that tells it. -/
inductive Cursor.Lacks (c : Cursor) : Fault → Prop
  | operand : TokenKind.number.longest? c.rest = none → TokenKind.name.longest? c.rest = none →
    c.Lacks (.expectedOperand c.describeNext)
  | closeParen : TokenKind.closeParen.longest? c.rest = none →
    c.Lacks (.unclosedParenthesis c.describeNext)
  | separator : c.rest ≠ [] → TokenKind.separator.longest? c.rest = none →
    c.Lacks (.unexpectedCharacter c.describeNext)

namespace Grammar

/-- Operators that wait for an operand, with the offsets of their symbols; latest first. -/
abbrev Due := List (Operator × Nat)

variable {σ β γ : Type}

/-- A statement `I` about what is due, the state and the cursor, and a statement `E` about the cursor
where a run has failed and its error. A name is looked up as soon as it is passed; no other token
concerns the state, and every operator is given all its operands. -/
structure Invariant (A : Actions σ β) (I : Due → σ → Cursor → Prop) (E : Cursor → Error → Prop) :
    Prop where
  pass : ∀ {due s c k m}, k ≠ .name → k.longest? c.rest = some m → I due s c → I due s (c.pass k m)
  name : ∀ {due s c m}, TokenKind.name.longest? c.rest = some m → I due s c →
    I due (A.name m s).2 (c.pass .name m)
  symbol : ∀ {due s c k op}, k ≠ .name → k.longest? c.rest = some (Operator.symbol op) → I due s c →
    I ((op, c.offset) :: due) s (c.pass k op.symbol)
  apply : ∀ {due s c op n vs}, vs.length = op.arity → I ((op, n) :: due) s c →
    I due (A.apply op n vs s).2 c ∧ ∀ f, (A.apply op n vs s).1 = .error f → E c ⟨f, n⟩
  lacks : ∀ {due s c f}, c.Lacks f → I due s c → E c ⟨f, c.offset⟩
  invalidNumber : ∀ {due s c m}, TokenKind.number.longest? c.rest = some m → A.number m = none →
    I due s c → E (c.pass .number m) ⟨.invalidNumber m, c.offset⟩

/-- The two statements at the place where a run has ended; behind an error anything may be due. -/
structure Result.Keeps (I : Due → σ → Cursor → Prop) (E : Cursor → Error → Prop) (due : Due)
    (r : Result σ β) : Prop where
  ok : ∀ v, r.outcome = .ok v → I due r.state r.cursor
  error : ∀ e, r.outcome = .error e → (∃ left, I left r.state r.cursor) ∧ E r.cursor e

namespace Result.Keeps

variable {I : Due → σ → Cursor → Prop} {E : Cursor → Error → Prop} {due : Due} {s : σ} {c : Cursor}

theorem of_ok (v : β) (h : I due s c) : (Result.ok v s c).Keeps I E due :=
  ⟨fun _ _ => h, fun _ he => nomatch he⟩

theorem of_fail {f : Fault} {n : Nat} (h : I due s c) (he : E c ⟨f, n⟩) {due' : Due} :
    (Result.fail f n s c : Result σ β).Keeps I E due' :=
  ⟨fun _ hv => (nomatch hv), fun _ same => ⟨⟨due, h⟩, Except.error.inj same ▸ he⟩⟩

theorem andThen {due' : Due} {r : Result σ β} {f : β → σ → Cursor → Result σ γ}
    (h : r.Keeps I E due)
    (next : ∀ v, I due r.state r.cursor → (f v r.state r.cursor).Keeps I E due') :
    (r.andThen f).Keeps I E due' := by
  obtain ⟨_ | v, s, c⟩ := r
  · exact ⟨fun _ hv => (nomatch hv), fun e he =>
      h.error e (congrArg Except.error (Except.error.inj he))⟩
  · exact next v (h.ok v rfl)

theorem kept {r : Result σ β} (h : r.Keeps I E due) : ∃ left, I left r.state r.cursor := by
  cases outcome : r.outcome with
  | ok v => exact ⟨due, h.ok v outcome⟩
  | error e => exact (h.error e outcome).1

end Result.Keeps

namespace Invariant

variable {A : Actions σ β} {I : Due → σ → Cursor → Prop} {E : Cursor → Error → Prop}
  (inv : Invariant A I E) {due : Due} {s : σ} {c d : Cursor}

include inv

theorem take? {k : TokenKind} {m : Text} (hk : k ≠ .name) (taken : c.take? k = some (m, d))
    (h : I due s c) : I due s d := by
  obtain ⟨hm, rfl⟩ := Cursor.take?_eq_some_iff.mp taken
  exact inv.pass hk hm h

theorem takeSymbol? {k : TokenKind} {op : Operator} (hk : k ≠ .name)
    (taken : c.take? k = some (op.symbol, d)) (h : I due s c) : I ((op, c.offset) :: due) s d := by
  obtain ⟨hm, rfl⟩ := Cursor.take?_eq_some_iff.mp taken
  exact inv.symbol hk hm h

theorem applyAt {op : Operator} {n : Nat} (vs : List β) (arity : vs.length = op.arity)
    (h : I ((op, n) :: due) s c) : (applyAt A op vs n s c).Keeps I E due := by
  obtain ⟨kept, faults⟩ : I due (A.apply op n vs s).2 c ∧ _ := inv.apply arity h
  rw [applyAt_eq]
  generalize A.apply op n vs s = p at kept faults ⊢
  obtain ⟨f | v, t⟩ := p
  · exact .of_fail kept (faults f rfl)
  · exact .of_ok v kept

theorem updated (v : β) (h : I due s c) : (updated A v s c).Keeps I E due := by
  rw [updated_eq]
  cases hx : c.afterVariable? with
  | none => exact .of_ok v h
  | some p =>
    obtain ⟨hop, taken⟩ := Cursor.afterVariable?_eq_some_iff.mp hx
    exact inv.applyAt [v] (Operator.arity_of_afterVariable hop).symm (inv.takeSymbol? (by decide) taken h)

theorem atom (h : I due s c) : (atom A s c).Keeps I E due := by
  rw [atom_eq]
  cases hx : c.take? .number with
  | some p =>
    obtain ⟨m, d⟩ := p
    obtain ⟨hm, rfl⟩ := Cursor.take?_eq_some_iff.mp hx
    have kept := inv.pass (by decide) hm h
    dsimp only
    cases value : A.number m with
    | none => exact .of_fail kept (inv.invalidNumber hm value h)
    | some v => exact .of_ok v kept
  | none =>
    cases hy : c.take? .name with
    | none =>
      have lacks := Cursor.Lacks.operand (Cursor.take?_eq_none_iff.mp hx)
        (Cursor.take?_eq_none_iff.mp hy)
      exact .of_fail h (inv.lacks lacks h)
    | some p =>
      obtain ⟨m, d⟩ := p
      obtain ⟨hm, rfl⟩ := Cursor.take?_eq_some_iff.mp hy
      have kept := inv.name hm h
      dsimp only
      split
      · exact inv.updated _ kept
      · exact .of_ok _ kept

theorem operated (op : Operator) (l : Level) (v : β) (n : Nat) (h : I ((op, n) :: due) s c)
    (expression : (expression A l s c).Keeps I E ((op, n) :: due))
    (operand : (operand A l s c).Keeps I E ((op, n) :: due)) :
    (operated A op l v n s c).Keeps I E due := by
  unfold Grammar.operated
  split
  case isTrue arity => exact inv.applyAt [v] arity.symm h
  case isFalse arity =>
    have right : (rightOperand A op l s c).Keeps I E ((op, n) :: due) := by
      unfold rightOperand
      split
      · exact expression
      · exact operand
    exact right.andThen fun u kept => inv.applyAt [v, u] (op.arity_eq.resolve_left arity).symm kept

theorem rules : RuleInduction
    (fun l c => ∀ due s, I due s c → (expression A l s c).Keeps I E due)
    (fun l c => ∀ due s, I due s c → (operand A l s c).Keeps I E due)
    (fun l c => ∀ due v s, I due s c → (chain A l v s c).Keeps I E due)
    (fun c => ∀ due s, I due s c → (term A s c).Keeps I E due)
    (fun c => ∀ due s, I due s c → (parenthesized A s c).Keeps I E due) where
  expression l c operand chain due s h := by
    rw [expression_eq]
    exact (operand due s h).andThen fun v kept =>
      chain _ (remaining_operand A l s c) due v _ kept
  operand l c expression term due s h := by
    rw [operand_eq]
    cases hl : l.next? with
    | some m => exact expression m hl due s h
    | none => exact term hl due s h
  chain l c called due v s h := by
    cases hx : c.atLevel? l with
    | none =>
      rw [chain_of_none A hx]
      exact .of_ok v h
    | some p =>
      obtain ⟨op, d⟩ := p
      obtain ⟨expression, operand, chain⟩ := called op d hx
      have passed := inv.takeSymbol? (by decide) (Cursor.atLevel?_eq_some_iff.mp hx).2 h
      rw [chain_of_some A hx]
      have done := inv.operated op l v c.offset passed (expression _ s passed) (operand _ s passed)
      exact done.andThen fun u kept =>
        chain _ (remaining_operated A op l v c.offset s d) due u _ kept
  term c term parenthesized due s h := by
    rw [term_eq]
    cases hx : c.beforeOperand? with
    | none => exact parenthesized due s h
    | some p =>
      obtain ⟨hop, taken⟩ := Cursor.beforeOperand?_eq_some_iff.mp hx
      have operand := term p.1 p.2 hx _ s (inv.takeSymbol? (by decide) taken h)
      exact operand.andThen fun v kept =>
        inv.applyAt [v] (Operator.arity_of_beforeOperand hop).symm kept
  parenthesized c expression due s h := by
    rw [parenthesized_eq]
    cases hx : c.take? .openParen with
    | none => exact inv.atom h
    | some p =>
      have opened := inv.take? (by decide) hx h
      refine (expression p.1 p.2 hx due s opened).andThen fun v kept => ?_
      split
      case h_1 closed => exact .of_ok v (inv.take? (by decide) closed kept)
      case h_2 missing =>
        exact .of_fail kept (inv.lacks (.closeParen (Cursor.take?_eq_none_iff.mp missing)) kept)

theorem expression (l : Level) (h : I due s c) : (expression A l s c).Keeps I E due :=
  inv.rules.all.1 l c due s h

theorem operand (l : Level) (h : I due s c) : (operand A l s c).Keeps I E due :=
  inv.rules.all.2.1 l c due s h

theorem moreStatements (done : Statements β) (h : I due s c) :
    (moreStatements A done s c).Keeps I E due := by
  induction c using Cursor.induction generalizing s done with
  | step c ih =>
    rw [moreStatements_eq]
    split
    case isTrue => exact .of_ok done h
    case isFalse more =>
      cases hx : c.take? .separator with
      | none =>
        have rest : c.rest ≠ [] := fun ended => more (List.isEmpty_iff.mpr ended)
        have lacks := Cursor.Lacks.separator rest (Cursor.take?_eq_none_iff.mp hx)
        exact .of_fail h (inv.lacks lacks h)
      | some p =>
        have passed := Cursor.remaining_take? hx
        have kept : I due s p.2 := inv.take? (by decide) hx h
        dsimp only
        split
        · exact .of_ok done kept
        have reached := remaining_expression A .loosest s p.2
        exact (inv.expression .loosest kept).andThen fun v kept => ih _ (by omega) _ kept

/-- Nothing is due where a run begins. -/
theorem statements (h : I [] s c) : (statements A s c).Keeps I E [] :=
  (inv.expression .loosest h).andThen fun v kept => inv.moreStatements (.single v) kept

theorem run (rule : Rule) (h : I [] s c) : (rule.run A s c).Keeps I E [] := by
  cases rule with
  | expression l => exact inv.expression l h
  | term => exact inv.rules.all.2.2.2.1 c [] s h
  | parenthesized => exact inv.rules.all.2.2.2.2 c [] s h
  | atom => exact inv.atom h
  | statements => exact (inv.statements h).andThen fun b kept => .of_ok b.last kept

end Invariant

/-- Whatever the actions keep true of the state still holds after the last statement and after an
error, and an error is a fault of the text or of an action. -/
theorem statements_invariant {A : Actions σ β} {I : σ → Prop} {F : Fault → Prop}
    (syntactic : ∀ f, f.kind = .syntactic → F f) (name : ∀ m s, I s → I (A.name m s).2)
    (apply : ∀ op n vs s, vs.length = op.arity → I s →
      I (A.apply op n vs s).2 ∧ ∀ f, (A.apply op n vs s).1 = .error f → F f)
    {s : σ} (hs : I s) (c : Cursor) :
    I (statements A s c).state ∧ ∀ e, (statements A s c).outcome = .error e → F e.fault := by
  have inv : Invariant A (fun _ s _ => I s) fun _ e => F e.fault := {
    pass := fun _ _ h => h
    name := fun _ h => name _ _ h
    symbol := fun _ _ h => h
    apply := fun arity h => apply _ _ _ _ arity h
    lacks := fun hf _ => syntactic _ (by cases hf <;> rfl)
    invalidNumber := fun _ _ _ => syntactic _ rfl }
  have keeps := inv.statements (c := c) hs
  obtain ⟨_, kept⟩ := keeps.kept
  exact ⟨kept, fun e he => (keeps.error e he).2⟩

/-! ### Actions of the tokens that are passed -/

theorem namesOf_cons (l : Lexeme) (passed : List Lexeme) : namesOf (l :: passed) =
    if l.kind = .name then l.text :: namesOf passed else namesOf passed := by
  unfold namesOf
  rw [List.filter_cons]
  by_cases h : l.kind = .name <;> simp [h]

theorem invariant_names (A : Actions σ β) : Invariant A.logged
    (fun _ s c => lookups s.2 = namesOf c.passed) (fun _ _ => True) where
  pass {due s c k m} hk _ h := by
    show _ = namesOf (⟨k, m, _⟩ :: c.passed)
    rw [namesOf_cons, if_neg hk]
    exact h
  name {due s c m} _ h := by
    show m :: lookups s.2 = namesOf (⟨.name, m, _⟩ :: c.passed)
    rw [namesOf_cons, if_pos rfl, h]
  symbol {due s c k op} hk _ h := by
    show _ = namesOf (⟨k, op.symbol, _⟩ :: c.passed)
    rw [namesOf_cons, if_neg hk]
    exact h
  apply _ h := ⟨h, fun _ _ => trivial⟩
  lacks _ _ := trivial
  invalidNumber _ _ _ := trivial

/-- The symbol of the operator is among the tokens. -/
def Shows (passed : List Lexeme) (op : Operator) : Prop :=
  ∃ l ∈ passed, l.text = op.symbol

theorem Shows.cons {passed : List Lexeme} {op : Operator} (h : Shows passed op) (l : Lexeme) :
    Shows (l :: passed) op := by
  obtain ⟨l', hl, same⟩ := h
  exact ⟨l', List.mem_cons_of_mem l hl, same⟩

theorem invariant_symbols (A : Actions σ β) : Invariant A.logged
    (fun due s c => (∀ p ∈ due, Shows c.passed p.1) ∧
      ∀ op n, .applied op n ∈ s.2 → Shows c.passed op) (fun _ _ => True) where
  pass _ _ h := ⟨fun p hp => (h.1 p hp).cons _, fun op n hop => (h.2 op n hop).cons _⟩
  name {due s c m} _ h := by
    refine ⟨fun p hp => (h.1 p hp).cons _, fun op n hop => ?_⟩
    rcases List.mem_cons.mp hop with same | earlier
    · cases same
    · exact (h.2 op n earlier).cons _
  symbol {due s c k op} _ _ h := by
    refine ⟨List.forall_mem_cons.mpr ⟨⟨_, List.mem_cons_self, rfl⟩, fun p hp => (h.1 p hp).cons _⟩, ?_⟩
    exact fun op' n hop => (h.2 op' n hop).cons _
  apply {due s c op n vs} _ h := by
    obtain ⟨shown, waiting⟩ := List.forall_mem_cons.mp h.1
    refine ⟨⟨waiting, fun op' n' hop => ?_⟩, fun _ _ => trivial⟩
    rcases List.mem_cons.mp hop with same | earlier
    · obtain ⟨rfl, -⟩ := Event.applied.inj same
      exact shown
    · exact h.2 op' n' earlier
  lacks _ _ := trivial
  invalidNumber _ _ _ := trivial

end Grammar

end Calculator
