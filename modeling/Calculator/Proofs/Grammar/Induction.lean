import Calculator.Grammar.Rules

/-!
# Induction over the rules

A rule calls a tighter rule at its own cursor, and any rule behind a token it has passed. What holds
of a rule whenever it holds of the rules it calls therefore holds of all rules at all cursors
(`RuleInduction.all`). The principle does not depend on the actions, so that one induction can
follow two runs of the rules.
-/

namespace Calculator

/-- What holds at a cursor if it holds behind every token that is passed there. -/
theorem Cursor.induction {motive : Cursor → Prop}
    (step : ∀ c, (∀ d : Cursor, d.remaining < c.remaining → motive d) → motive c) (c : Cursor) :
    motive c :=
  (measure Cursor.remaining).wf.induction c step

namespace Grammar

section Progress

variable {σ β : Type} (A : Actions σ β)

/-! ### One operator of a chain -/

def rightOperand (op : Operator) (l : Level) (s : σ) (c : Cursor) : Result σ β :=
  match op.associativity with
  | .right => expression A l s c
  | .left => operand A l s c

/-- An operator of a level behind its left operand, from the cursor behind the operator on. -/
def operated (op : Operator) (l : Level) (left : β) (offset : Nat) (s : σ) (c : Cursor) :
    Result σ β :=
  if op.arity = 1 then applyAt A op [left] offset s c
  else (rightOperand A op l s c).andThen fun right s d => applyAt A op [left, right] offset s d

theorem chain_of_none {l : Level} {c : Cursor} (h : c.atLevel? l = none) (left : β) (s : σ) :
    chain A l left s c = .ok left s c := by
  rw [chain_eq, h]

theorem chain_of_some {l : Level} {c d : Cursor} {op : Operator}
    (h : c.atLevel? l = some (op, d)) (left : β) (s : σ) :
    chain A l left s c =
      (operated A op l left c.offset s d).andThen fun v s e => chain A l v s e := by
  rw [chain_eq, h]
  rfl

theorem andThen_eq_ok {γ : Type} {r : Result σ β} {f : β → σ → Cursor → Result σ γ} {u : γ} {t : σ}
    {d : Cursor} : r.andThen f = .ok u t d ↔ ∃ v s c, r = .ok v s c ∧ f v s c = .ok u t d := by
  constructor
  · intro h
    obtain ⟨_ | v, s, c⟩ := r
    · cases h
    · exact ⟨v, s, c, rfl, h⟩
  · rintro ⟨v, s, c, rfl, h⟩
    exact h

theorem Result.andThen_ok (r : Result σ β) : r.andThen Result.ok = r := by
  obtain ⟨_ | v, s, c⟩ := r <;> rfl

theorem Result.andThen_assoc {γ δ : Type} (r : Result σ β) (f : β → σ → Cursor → Result σ γ)
    (g : γ → σ → Cursor → Result σ δ) :
    (r.andThen f).andThen g = r.andThen fun v s c => (f v s c).andThen g := by
  obtain ⟨_ | v, s, c⟩ := r <;> rfl

theorem cursor_applyAt (op : Operator) (operands : List β) (n : Nat) (s : σ) (c : Cursor) :
    (applyAt A op operands n s c).cursor = c := by
  rw [applyAt_eq]
  split <;> rfl

/-! ### No rule goes back -/

theorem remaining_andThen {γ : Type} {r : Result σ β} {f : β → σ → Cursor → Result σ γ} {n : Nat}
    (hr : r.cursor.remaining ≤ n)
    (hf : ∀ v s c, (f v s c).cursor.remaining ≤ c.remaining) :
    (r.andThen f).cursor.remaining ≤ n := by
  obtain ⟨outcome, s, c⟩ := r
  cases outcome with
  | ok v => exact Nat.le_trans (hf v s c) hr
  | error e => exact hr

theorem remaining_applyAt (op : Operator) (operands : List β) (n : Nat) (s : σ) (c : Cursor) :
    (applyAt A op operands n s c).cursor.remaining ≤ c.remaining :=
  (Bounded.applyAt A op operands n s c).property

theorem remaining_expression (l : Level) (s : σ) (c : Cursor) :
    (expression A l s c).cursor.remaining ≤ c.remaining :=
  (Bounded.expression A l s c).property

theorem remaining_operand (l : Level) (s : σ) (c : Cursor) :
    (operand A l s c).cursor.remaining ≤ c.remaining :=
  (Bounded.operand A l s c).property

theorem remaining_operated (op : Operator) (l : Level) (left : β) (n : Nat) (s : σ) (c : Cursor) :
    (operated A op l left n s c).cursor.remaining ≤ c.remaining := by
  unfold operated rightOperand
  split
  · exact remaining_applyAt A op _ n s c
  · refine remaining_andThen ?_ fun _ _ _ => remaining_applyAt A op _ n _ _
    split
    · exact remaining_expression A l s c
    · exact remaining_operand A l s c

end Progress

/-! ### The principle -/

/-- Statements about the five recursive rules, each of which follows from those about the rules
that its own rule calls. -/
structure RuleInduction (E O C : Level → Cursor → Prop) (T P : Cursor → Prop) : Prop where
  expression : ∀ l c, O l c → (∀ d, d.remaining ≤ c.remaining → C l d) → E l c
  operand : ∀ l c, (∀ m, l.next? = some m → E m c) → (l.next? = none → T c) → O l c
  chain : ∀ l c, (∀ op d, c.atLevel? l = some (op, d) →
    E l d ∧ O l d ∧ ∀ e, e.remaining ≤ d.remaining → C l e) → C l c
  term : ∀ c, (∀ op d, c.beforeOperand? = some (op, d) → T d) → P c → T c
  parenthesized : ∀ c, (∀ m d, c.take? .openParen = some (m, d) → E .loosest d) → P c

namespace RuleInduction

variable {E O C : Level → Cursor → Prop} {T P : Cursor → Prop}

theorem levels (h : RuleInduction E O C T P) {c : Cursor} (ht : T c)
    (hc : ∀ l d, d.remaining ≤ c.remaining → C l d) (l : Level) : E l c ∧ O l c := by
  induction hn : 13 - l.rank generalizing l with
  | zero =>
    have operand : O l c := h.operand l c
      (fun m hm => by have := Level.rank_next? hm; have := m.rank_le; omega) fun _ => ht
    exact ⟨h.expression l c operand (hc l), operand⟩
  | succ n ih =>
    have operand : O l c := h.operand l c
      (fun m hm => (ih m (by have := Level.rank_next? hm; omega)).1) fun _ => ht
    exact ⟨h.expression l c operand (hc l), operand⟩

theorem all (h : RuleInduction E O C T P) :
    (∀ l c, E l c) ∧ (∀ l c, O l c) ∧ (∀ l c, C l c) ∧ (∀ c, T c) ∧ ∀ c, P c := by
  have every (c : Cursor) : (∀ l, E l c) ∧ (∀ l, O l c) ∧ (∀ l, C l c) ∧ T c ∧ P c := by
    induction c using Cursor.induction with
    | step c ih =>
      have chain : ∀ l d, d.remaining ≤ c.remaining → C l d := fun l d hd =>
        h.chain l d fun op e he => by
          have passed := Cursor.remaining_atLevel? he
          obtain ⟨expression, operand, -⟩ := ih e (by omega)
          exact ⟨expression l, operand l, fun f hf => (ih f (by omega)).2.2.1 l⟩
      have parenthesized : P c := h.parenthesized c fun m d hd =>
        (ih d (Cursor.remaining_take? hd)).1 .loosest
      have term : T c := h.term c
        (fun op d hd => (ih d (Cursor.remaining_beforeOperand? hd)).2.2.2.1) parenthesized
      have levels := h.levels term chain
      exact ⟨fun l => (levels l).1, fun l => (levels l).2, fun l => chain l c (Nat.le_refl _), term,
        parenthesized⟩
  exact ⟨fun l c => (every c).1 l, fun l c => (every c).2.1 l, fun l c => (every c).2.2.1 l,
    fun c => (every c).2.2.2.1, fun c => (every c).2.2.2.2⟩

end RuleInduction

end Grammar

end Calculator
