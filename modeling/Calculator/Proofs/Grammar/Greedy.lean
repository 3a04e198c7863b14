import Calculator.Proofs.Grammar.Progress

/-!
# Levels read as far as they can

An expression ends where no operator of its level or of a tighter one stands
(`Grammar.refuses_expression`). A looser level begins as a tighter one does (`Grammar.reaches_looser`),
and does no more unless an operator of a level between the two follows
(`Grammar.expression_of_between`).
-/

namespace Calculator

namespace Level

theorem rank_injective {k l : Level} (h : k.rank = l.rank) : k = l := by
  cases k <;> cases l <;> first | rfl | cases h

theorem tightest {l : Level} (h : l.next? = none) (k : Level) : k.rank ≤ l.rank := by
  cases l <;> first | exact k.rank_le | cases h

end Level

/-- No operator of a level from the rank `n` on stands at the cursor. -/
def Cursor.Refuses (n : Nat) (c : Cursor) : Prop :=
  ∀ l : Level, n ≤ l.rank → c.atLevel? l = none

namespace Cursor

variable {n : Nat} {c : Cursor} {l : Level}

theorem refuses_iff : c.Refuses n ↔ ∀ (op : Operator) (l : Level),
    TokenKind.operator.IsLongest c.rest op.symbol → op.level? = some l → l.rank < n := by
  constructor
  · intro h op l longest hl
    refine Nat.lt_of_not_le fun le => ?_
    have taken : c.take? .operator = some (op.symbol, _) :=
      take?_eq_some_iff.mpr ⟨TokenKind.longest?_eq_some_iff.mpr longest, rfl⟩
    cases (h l le).symm.trans (atLevel?_eq_some_iff.mpr ⟨hl, taken⟩)
  · intro h l le
    refine atLevel?_eq_none fun op hl hm => ?_
    have := h op l (TokenKind.isLongest_of_longest? hm) hl
    omega

theorem Refuses.mono {k : Nat} (h : c.Refuses n) (le : n ≤ k) : c.Refuses k :=
  fun l hl => h l (Nat.le_trans le hl)

theorem Refuses.add (tighter : c.Refuses (l.rank + 1)) (here : c.atLevel? l = none) :
    c.Refuses l.rank := by
  intro m hm
  rcases Nat.lt_or_eq_of_le hm with lt | same
  · exact tighter m lt
  · exact Level.rank_injective same ▸ here

theorem refuses_of_tightest (c : Cursor) (h : l.next? = none) : c.Refuses (l.rank + 1) := by
  intro m hm
  have := Level.tightest h m
  omega

end Cursor

namespace Grammar

variable {σ β γ δ : Type}

/-! ### Where an expression ends -/

/-- If this succeeds, it ends where no operator of a level from the rank `n` on stands. -/
def Result.Refuses (n : Nat) (r : Result σ β) : Prop :=
  ∀ v, r.outcome = .ok v → r.cursor.Refuses n

theorem Result.Refuses.andThen {n : Nat} {r : Result σ β} {f : β → σ → Cursor → Result σ γ}
    (next : ∀ v, r.outcome = .ok v → (f v r.state r.cursor).Refuses n) : (r.andThen f).Refuses n := by
  obtain ⟨e | v, s, c⟩ := r
  · exact fun _ failed => nomatch failed
  · exact next v rfl

theorem refuses_applyAt {n : Nat} {c : Cursor} (h : c.Refuses n) (A : Actions σ β) (op : Operator)
    (vs : List β) (offset : Nat) (s : σ) : (applyAt A op vs offset s c).Refuses n := by
  intro v _
  rw [cursor_applyAt]
  exact h

theorem refuses_operated {op : Operator} {l : Level} {c d : Cursor} (A : Actions σ β)
    (taken : c.atLevel? l = some (op, d)) (left : β) (offset : Nat) (s : σ)
    (expression : (expression A l s d).Refuses l.rank)
    (operand : (operand A l s d).Refuses (l.rank + 1)) :
    (operated A op l left offset s d).Refuses (l.rank + 1) := by
  unfold operated
  split
  case isTrue unary =>
    have tightest : l.next? = none :=
      Operator.next?_of_arity (Cursor.atLevel?_eq_some_iff.mp taken).1 unary
    exact refuses_applyAt (Cursor.refuses_of_tightest d tightest) A op _ offset s
  case isFalse =>
    have right : (rightOperand A op l s d).Refuses (l.rank + 1) := by
      unfold rightOperand
      split
      · exact fun v ended => (expression v ended).mono (Nat.le_succ _)
      · exact operand
    exact .andThen fun v ended => refuses_applyAt (right v ended) A op _ offset _

theorem refuses_rules (A : Actions σ β) : RuleInduction
    (fun l c => ∀ s, (expression A l s c).Refuses l.rank)
    (fun l c => ∀ s, (operand A l s c).Refuses (l.rank + 1))
    (fun l c => ∀ v s, c.Refuses (l.rank + 1) → (chain A l v s c).Refuses l.rank)
    (fun _ => True) (fun _ => True) where
  expression l c operand chain s := by
    rw [expression_eq]
    exact .andThen fun v ended =>
      chain _ (remaining_operand A l s c) v _ (operand s v ended)
  operand l c expression _ s := by
    rw [operand_eq]
    cases hl : l.next? with
    | some m =>
      rw [← Level.rank_next? hl]
      exact expression m hl s
    | none => exact fun _ _ => Cursor.refuses_of_tightest _ hl
  chain l c called v s tighter := by
    cases hx : c.atLevel? l with
    | none =>
      rw [chain_of_none A hx]
      exact fun _ _ => tighter.add hx
    | some p =>
      obtain ⟨op, d⟩ := p
      obtain ⟨expression, operand, chain⟩ := called op d hx
      rw [chain_of_some A hx]
      have done := refuses_operated A hx v c.offset s (expression s) (operand s)
      exact .andThen fun u ended =>
        chain _ (remaining_operated A op l v c.offset s d) u _ (done u ended)
  term _ _ _ := trivial
  parenthesized _ _ := trivial

theorem refuses_expression (A : Actions σ β) (l : Level) (s : σ) (c : Cursor) :
    (expression A l s c).Refuses l.rank :=
  (refuses_rules A).all.1 l c s

/-! ### What a looser level does behind a tighter one -/

theorem reaches_andThen {c : Cursor} {r : Result σ β} {f : β → σ → Cursor → Result σ γ}
    (first : c.Reaches r.cursor) (next : ∀ v s (d : Cursor), d.Reaches (f v s d).cursor) :
    c.Reaches (r.andThen f).cursor := by
  obtain ⟨_ | v, s, d⟩ := r
  · exact first
  · exact first.trans (next v s d)

/-- A looser level reads what a tighter one reads, and goes on behind it if there is an operator of a
level between the two. -/
theorem exists_behind (A : Actions σ β) {k l : Level} (looser : k.rank ≤ l.rank) :
    ∃ behind : β → σ → Cursor → Result σ β,
      (∀ s c, expression A k s c = (expression A l s c).andThen behind) ∧
      (∀ v s (c : Cursor), c.Reaches (behind v s c).cursor) ∧
      ∀ v s (c : Cursor), (∀ j : Level, k.rank ≤ j.rank → j.rank < l.rank → c.atLevel? j = none) →
        behind v s c = .ok v s c := by
  induction hn : l.rank - k.rank generalizing k with
  | zero =>
    obtain rfl : k = l := Level.rank_injective (by omega)
    exact ⟨.ok, fun s c => (Result.andThen_ok _).symm, fun v s c => .refl c, fun v s c _ => rfl⟩
  | succ n ih =>
    cases hk : k.next? with
    | none => have := Level.tightest hk l; omega
    | some m =>
      have next := Level.rank_next? hk
      obtain ⟨behind, same, reaches, stays⟩ := ih (k := m) (by omega) (by omega)
      refine ⟨fun v s c => (behind v s c).andThen (chain A k), fun s c => ?_, fun v s c => ?_,
        fun v s c between => ?_⟩
      · rw [expression_eq, operand_eq, hk, ← Result.andThen_assoc, ← same]
      · exact reaches_andThen (reaches v s c) fun u t d => reaches_run A ⟨.chain k u, t, d⟩
      · have alone : behind v s c = .ok v s c := stays v s c fun j le => between j (by omega)
        have none : c.atLevel? k = .none := between k (Nat.le_refl _) (by omega)
        show (behind v s c).andThen (chain A k) = _
        rw [alone, Result.ok_andThen, chain_of_none A none]

variable {A : Actions σ β} {k l : Level} {s : σ} {c : Cursor}

theorem reaches_looser (A : Actions σ β) (looser : k.rank ≤ l.rank) (s : σ) (c : Cursor) :
    (expression A l s c).cursor.Reaches (expression A k s c).cursor := by
  obtain ⟨behind, same, reaches, -⟩ := exists_behind A looser
  rw [same]
  exact reaches_andThen (.refl _) reaches

/-- Behind an error nothing is read, and elsewhere nothing but operators of the levels between. -/
theorem expression_of_between (looser : k.rank ≤ l.rank)
    (between : ∀ v, (expression A l s c).outcome = .ok v → ∀ j : Level, k.rank ≤ j.rank →
      j.rank < l.rank → (expression A l s c).cursor.atLevel? j = none) :
    expression A k s c = expression A l s c := by
  obtain ⟨behind, same, -, stays⟩ := exists_behind A looser
  rw [same]
  generalize expression A l s c = r at between ⊢
  obtain ⟨e | v, t, d⟩ := r
  · rfl
  · exact stays v t d (between v rfl)

end Grammar

end Calculator
