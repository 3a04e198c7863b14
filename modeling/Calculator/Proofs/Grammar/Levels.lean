import Calculator.Proofs.Grammar.Greedy
import Calculator.Proofs.Tree.Reading

/-!
# An operand seen from a looser level

Where nothing goes on behind what a rule has read, all looser levels read the same there
(`expression_of_tighter`, `expression_of_term`). An operator of two operands whose right operand
ends so is therefore applied once whatever looser level it is read at (`expression_joined`).
-/

namespace Calculator

namespace Grammar

variable {σ β : Type} {A : Actions σ β} {k l : Level} {s : σ} {c : Cursor}

/-- If this succeeds, no level from the rank `n` on goes on behind it. -/
def Result.Settled (n : Nat) (r : Result σ β) : Prop :=
  ∀ v, r.outcome = .ok v → r.cursor.Closes n

namespace Result.Settled

variable {m n : Nat} {r : Result σ β}

theorem mono (h : r.Settled m) (hle : m ≤ n) : r.Settled n :=
  fun v hv => (h v hv).mono hle

theorem of_ok {v : β} (h : c.Closes n) : (Result.ok v s c).Settled n :=
  fun _ _ => h

theorem of_error {e : Error} (h : r.outcome = .error e) (n : Nat) : r.Settled n := by
  intro v hv
  cases h.symm.trans hv

theorem of_atEnd (h : ∀ v, r.outcome = .ok v → r.cursor.rest = []) (n : Nat) : r.Settled n :=
  fun v hv => .of_none (by rw [h v hv, TokenKind.longest?_nil]) n

theorem applied (h : r.Settled n) (op : Operator) (vs : β → List β) (offset : Nat) :
    (r.andThen fun v s c => applyAt A op (vs v) offset s c).Settled n := by
  obtain ⟨e | v, s, c⟩ := r
  · exact of_error rfl n
  · intro u _
    show (applyAt A op (vs v) offset s c).cursor.Closes n
    rw [cursor_applyAt]
    exact h v rfl

end Result.Settled

/-! ### Down to the operand -/

section Tighter

variable {r : Result σ β}

theorem chain_of_settled {v : β} (h : c.Closes l.rank) : chain A l v s c = .ok v s c :=
  chain_of_none A (h.atLevel? (Nat.le_refl _)) v s

theorem expression_of_operand (read : operand A l s c = r) (settled : r.Settled l.rank) :
    expression A l s c = r := by
  rw [expression_eq, read]
  obtain ⟨e | v, t, d⟩ := r
  · rfl
  · exact chain_of_settled (settled v rfl)

theorem expression_of_tighter (read : expression A l s c = r) (tighter : k.rank ≤ l.rank)
    (settled : r.Settled k.rank) : expression A k s c = r := by
  subst read
  exact expression_of_between tighter fun v ended j looser _ => (settled v ended).atLevel? looser

theorem expression_of_term (read : term A s c = r) (settled : r.Settled k.rank) :
    expression A k s c = r := by
  have tightest : operand A .factorial s c = r := (operand_eq A .factorial s c).trans read
  exact expression_of_tighter (expression_of_operand tightest (settled.mono k.rank_le)) k.rank_le
    settled

theorem operand_of_term (read : term A s c = r) (settled : r.Settled (l.rank + 1)) :
    operand A l s c = r := by
  rw [operand_eq]
  cases hl : l.next? with
  | none => exact read
  | some m => exact expression_of_term read (settled.mono (Nat.le_of_eq (Level.rank_next? hl).symm))

theorem rightOperand_of_term {op : Operator} (read : term A s c = r) (settled : r.Settled l.rank) :
    rightOperand A op l s c = r := by
  unfold rightOperand
  split
  · exact expression_of_term read settled
  · exact operand_of_term read (settled.mono (by omega))

end Tighter

/-! ### Terms by their first token -/

variable {d : Cursor} {m : Text}

theorem term_of_openParen (taken : c.take? .openParen = some (m, d)) :
    term A s c = (expression A .loosest s d).andThen fun v s e =>
      match e.take? .closeParen with
      | some (_, f) => .ok v s f
      | none => .fail (.unclosedParenthesis e.describeNext) e.offset s e := by
  have opened := parenthesized_eq A s c
  rw [taken] at opened
  exact (term_of_atom A s (Cursor.take?_eq_some_iff.mp taken).1 (by decide)).trans opened

theorem term_of_name {n : Nat} (taken : c.take? .name = some (m, d)) (closes : d.Closes n) :
    term A s c = .ok (A.name m s).1 (A.name m s).2 d := by
  rw [term_of_atom A s (Cursor.take?_eq_some_iff.mp taken).1 (by decide),
    parenthesized_of_name A s taken, updated_eq, closes.afterVariable?, ite_self]

/-! ### One operator between two operands -/

variable {op : Operator} {v : β} {t : σ} {e : Cursor}

/-- From any level that is not tighter than its own, an operator is applied to the term before it
and to its right operand, if nothing goes on behind that. -/
theorem expression_joined {r : Result σ β} (left : term A s c = .ok v t d) (hl : op.level? = some l)
    (binary : op.arity = 2) (taken : d.take? .operator = some (op.symbol, e))
    (right : rightOperand A op l t e = r) (looser : k.rank ≤ l.rank) (settled : r.Settled k.rank) :
    expression A k s c = r.andThen fun u t f => applyAt A op [v, u] d.offset t f := by
  have operand : operand A l s c = .ok v t d :=
    operand_of_term left (.of_ok (.of_operator hl taken (by omega)))
  have applied := settled.applied (A := A) op (fun u => [v, u]) d.offset
  refine expression_of_tighter (l := l) ?_ looser applied
  rw [expression_eq, operand, Result.ok_andThen,
    chain_of_some A (Cursor.atLevel?_eq_some_iff.mpr ⟨hl, taken⟩), operated,
    if_neg (by rw [binary]; decide), right]
  generalize r.andThen _ = q at applied
  obtain ⟨e | w, t, f⟩ := q
  · rfl
  · exact chain_of_settled ((applied w rfl).mono looser)

end Grammar

end Calculator
