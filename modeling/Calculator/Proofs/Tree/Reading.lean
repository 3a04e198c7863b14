import Calculator.Grammar.Derivation
import Calculator.Proofs.Grammar.Induction
import Calculator.Proofs.Operator.Apply
import Calculator.Proofs.Token.Boundary
import Calculator.Proofs.Token.Numeral
import Calculator.Proofs.Token.Operators
import Calculator.Tree.Builder

/-!
# Which tree a text stands for

`Reads p t c d` says that the text between two cursors is a phrase of kind `p` with the tree `t`.
The builder finds no other tree (`reads_of_expression`), and it finds this one where nothing behind
the phrase goes on with it (`Reads.expression`).
-/

namespace Calculator

/-- The symbol at the cursor, if there is one, joins expressions of a rank below `n`. -/
def Cursor.Closes (n : Nat) (c : Cursor) : Prop :=
  ∀ m, TokenKind.operator.longest? c.rest = some m →
    ∃ (op : Operator) (l : Level), op.level? = some l ∧ op.symbol = m ∧ l.rank < n

namespace Cursor.Closes

variable {n : Nat} {c d : Cursor}

theorem mono {k : Nat} (h : c.Closes n) (hle : n ≤ k) : c.Closes k := by
  intro m hm
  obtain ⟨op, l, hl, hs, hlt⟩ := h m hm
  exact ⟨op, l, hl, hs, by omega⟩

theorem of_none (h : TokenKind.operator.longest? c.rest = none) (n : Nat) : c.Closes n := by
  intro m hm
  rw [h] at hm
  cases hm

theorem of_operator {op : Operator} {l : Level} (hl : op.level? = some l)
    (taken : c.take? .operator = some (op.symbol, d)) (hlt : l.rank < n) : c.Closes n := by
  intro m hm
  rw [(take?_eq_some_iff.mp taken).1] at hm
  exact ⟨op, l, hl, Option.some.inj hm, hlt⟩

theorem atLevel? {l : Level} (h : c.Closes n) (hle : n ≤ l.rank) : c.atLevel? l = none := by
  refine atLevel?_eq_none fun op hop hm => ?_
  obtain ⟨op', l', hl', hs, hlt⟩ := h op.symbol hm
  have found := Operator.find?_leveled hl'
  rw [hs, Operator.find?_leveled hop] at found
  obtain rfl := Option.some.inj found
  obtain rfl := Option.some.inj (hop.symm.trans hl')
  omega

/-- No symbol of a level begins with an update. -/
theorem afterVariable? (h : c.Closes n) : c.afterVariable? = none := by
  have apart : ∀ op ∈ Operator.all, op.placement = .afterVariable → ∀ op' ∈ Operator.all,
      op'.level?.isSome → ¬ op.symbol <+: op'.symbol := by decide +kernel
  cases hf : c.afterVariable? with
  | none => rfl
  | some p =>
    obtain ⟨hop, taken⟩ := afterVariable?_eq_some_iff.mp hf
    have front := TokenKind.longest?_isPrefix (take?_eq_some_iff.mp taken).1
    obtain ⟨m, hm, hlen⟩ := TokenKind.exists_longest? front (TokenKind.language_symbol p.1)
    obtain ⟨op', l, hl, rfl, -⟩ := h m hm
    have longer := List.prefix_of_prefix_length_le front (TokenKind.longest?_isPrefix hm) hlen
    exact absurd longer
      (apart p.1 (Operator.mem_all _) hop op' (Operator.mem_all _) (by rw [hl]; rfl))

end Cursor.Closes

namespace Grammar

open Calculator.Tree (builder)

inductive Reads : Phrase → Tree → Cursor → Cursor → Prop
  | operand {l : Level} {t : Tree} {c d : Cursor} :
    Reads (.operand l) t c d → Reads (.expression l) t c d
  | leftGrouping {op : Operator} {l : Level} {t u : Tree} {c d e f : Cursor} :
    op.level? = some l → op.arity = 2 → op.associativity = .left →
    Reads (.expression l) t c d → d.take? .operator = some (op.symbol, e) →
    Reads (.operand l) u e f → Reads (.expression l) (.binary op d.offset t u) c f
  | rightGrouping {op : Operator} {l : Level} {t u : Tree} {c d e f : Cursor} :
    op.level? = some l → op.arity = 2 → op.associativity = .right →
    Reads (.operand l) t c d → d.take? .operator = some (op.symbol, e) →
    Reads (.expression l) u e f → Reads (.expression l) (.binary op d.offset t u) c f
  | behind {op : Operator} {l : Level} {t : Tree} {c d e : Cursor} :
    op.level? = some l → op.arity = 1 →
    Reads (.expression l) t c d → d.take? .operator = some (op.symbol, e) →
    Reads (.expression l) (.unary op d.offset t) c e
  | before {op : Operator} {t : Tree} {c d e : Cursor} :
    op.placement = .beforeOperand → c.take? .beforeOperand = some (op.symbol, d) →
    Reads .term t d e → Reads .term (.unary op c.offset t) c e
  | atom {t : Tree} {c d : Cursor} : Reads .atom t c d → Reads .term t c d
  | parentheses {m n : Text} {t : Tree} {c d e f : Cursor} :
    c.take? .openParen = some (m, d) → Reads (.expression .loosest) t d e →
    e.take? .closeParen = some (n, f) → Reads .atom t c f
  | number {m : Text} {c d : Cursor} :
    c.take? .number = some (m, d) → Reads .atom (.number m) c d
  | name {m : Text} {c d : Cursor} : c.take? .name = some (m, d) → Reads .atom (.name m) c d
  | updated {op : Operator} {m : Text} {c d e : Cursor} :
    c.take? .name = some (m, d) → Environment.isConstant m = false →
    op.placement = .afterVariable → d.take? .afterVariable = some (op.symbol, e) →
    Reads .atom (.unary op d.offset (.name m)) c e

theorem builder_unary (op : Operator) (n : Nat) (t : Tree) (c : Cursor) :
    applyAt builder op [t] n () c = .ok (.unary op n t) () c := by
  rw [applyAt_eq]
  rfl

theorem builder_binary (op : Operator) (n : Nat) (t u : Tree) (c : Cursor) :
    applyAt builder op [t, u] n () c = .ok (.binary op n t u) () c := by
  rw [applyAt_eq]
  rfl

theorem builder_isVariable (m : Text) : builder.isVariable (.name m) = !Environment.isConstant m := by
  cases h : Environment.isConstant m <;> simp [builder, Tree.IsVariable, h]

/-! ### The builder reads the grammar -/

theorem reads_of_atom {c d : Cursor} {t : Tree} (h : atom builder () c = .ok t () d) :
    Reads .atom t c d := by
  rw [atom_eq] at h
  cases hx : c.take? .number with
  | some p =>
    simp only [hx] at h
    cases hm : Decimal.read? p.1 with
    | none =>
      simp only [builder, hm, Option.map_none] at h
      cases h
    | some v =>
      simp only [builder, hm, Option.map_some] at h
      cases h
      exact .number hx
  | none =>
    simp only [hx] at h
    cases hy : c.take? .name with
    | none =>
      rw [hy] at h
      cases h
    | some p =>
      obtain ⟨m, e⟩ := p
      rw [hy] at h
      replace h : (if builder.isVariable (.name m) then updated builder (.name m) () e
        else .ok (.name m) () e) = .ok t () d := h
      rw [builder_isVariable] at h
      split at h
      case isFalse =>
        cases h
        exact .name hy
      case isTrue hc =>
        rw [updated_eq] at h
        cases hz : e.afterVariable? with
        | none =>
          rw [hz] at h
          cases h
          exact .name hy
        | some q =>
          obtain ⟨op, f⟩ := q
          obtain ⟨hop, taken⟩ := Cursor.afterVariable?_eq_some_iff.mp hz
          simp only [hz, builder_unary] at h
          cases h
          exact .updated hy (by simpa using hc) hop taken

theorem reads_of_operated {op : Operator} {l : Level} {t v : Tree} {c d e f : Cursor}
    (hx : d.atLevel? l = some (op, e)) (left : Reads (.expression l) t c d)
    (leftOperand : op.associativity = .right → Reads (.operand l) t c d)
    (expression : ∀ u g, expression builder l () e = .ok u () g →
      Reads (.expression l) u e g ∧ g.atLevel? l = none)
    (operand : ∀ u g, operand builder l () e = .ok u () g → Reads (.operand l) u e g)
    (h : operated builder op l t d.offset () e = .ok v () f) :
    Reads (.expression l) v c f ∧ (op.associativity = .right → f.atLevel? l = none) := by
  obtain ⟨hl, taken⟩ := Cursor.atLevel?_eq_some_iff.mp hx
  unfold operated at h
  split at h
  case isTrue arity =>
    rw [builder_unary] at h
    cases h
    refine ⟨.behind hl arity left taken, fun right => ?_⟩
    rw [Operator.associativity_of_arity hl arity] at right
    cases right
  case isFalse arity =>
    have binary : op.arity = 2 := op.arity_eq.resolve_left arity
    obtain ⟨u, _, g, hr, h⟩ := andThen_eq_ok.mp h
    rw [builder_binary] at h
    cases h
    unfold rightOperand at hr
    split at hr
    case h_1 right =>
      obtain ⟨read, closed⟩ := expression u _ hr
      exact ⟨.rightGrouping hl binary right (leftOperand right) taken read, fun _ => closed⟩
    case h_2 other =>
      refine ⟨.leftGrouping hl binary other left taken (operand u _ hr), fun right => ?_⟩
      rw [other] at right
      cases right

theorem reads_rules : RuleInduction
    (fun l c => ∀ t d, expression builder l () c = .ok t () d →
      Reads (.expression l) t c d ∧ d.atLevel? l = none)
    (fun l c => ∀ t d, operand builder l () c = .ok t () d → Reads (.operand l) t c d)
    (fun l d => ∀ c t u e, Reads (.expression l) t c d →
      (∀ op f, d.atLevel? l = some (op, f) → op.associativity = .right → Reads (.operand l) t c d) →
      chain builder l t () d = .ok u () e → Reads (.expression l) u c e ∧ e.atLevel? l = none)
    (fun c => ∀ t d, term builder () c = .ok t () d → Reads .term t c d)
    (fun c => ∀ t d, parenthesized builder () c = .ok t () d → Reads .atom t c d) where
  expression l c operand chain t d h := by
    rw [expression_eq] at h
    obtain ⟨u, _, e, hu, h⟩ := andThen_eq_ok.mp h
    have reached := remaining_operand builder l () c
    rw [hu] at reached
    have left := operand u e hu
    exact chain e reached c u t d (.operand left) (fun _ _ _ _ => left) h
  operand l c expression term t d h := by
    rw [operand_eq] at h
    unfold Phrase.operand
    cases hl : l.next? with
    | some m =>
      rw [hl] at h
      exact (expression m hl t d h).1
    | none =>
      rw [hl] at h
      exact term hl t d h
  chain l d called c t u e left leftOperand h := by
    cases hx : d.atLevel? l with
    | none =>
      rw [chain_of_none builder hx] at h
      cases h
      exact ⟨left, hx⟩
    | some p =>
      obtain ⟨op, f⟩ := p
      obtain ⟨expression, operand, chain⟩ := called op f hx
      rw [chain_of_some builder hx] at h
      obtain ⟨v, _, g, hv, h⟩ := andThen_eq_ok.mp h
      have reached := remaining_operated builder op l t d.offset () f
      rw [hv] at reached
      obtain ⟨read, closed⟩ :=
        reads_of_operated hx left (leftOperand op f hx) expression operand hv
      refine chain g reached c v u e read (fun op' k hy right => ?_) h
      -- All operators of a level group alike, and behind a right-grouping one the level is done.
      obtain ⟨hl, -⟩ := Cursor.atLevel?_eq_some_iff.mp hx
      obtain ⟨hl', -⟩ := Cursor.atLevel?_eq_some_iff.mp hy
      rw [closed ((Operator.associativity_eq hl hl').trans right)] at hy
      cases hy
  term c term parenthesized t d h := by
    rw [term_eq] at h
    cases hx : c.beforeOperand? with
    | none =>
      rw [hx] at h
      exact .atom (parenthesized t d h)
    | some p =>
      obtain ⟨op, e⟩ := p
      rw [hx] at h
      obtain ⟨u, _, f, hu, h⟩ := andThen_eq_ok.mp h
      obtain ⟨hop, taken⟩ := Cursor.beforeOperand?_eq_some_iff.mp hx
      rw [builder_unary] at h
      cases h
      exact .before hop taken (term op e hx u d hu)
  parenthesized c expression t d h := by
    rw [parenthesized_eq] at h
    cases hx : c.take? .openParen with
    | none =>
      rw [hx] at h
      exact reads_of_atom h
    | some p =>
      obtain ⟨m, e⟩ := p
      rw [hx] at h
      obtain ⟨u, _, f, hu, h⟩ := andThen_eq_ok.mp h
      cases hy : f.take? .closeParen with
      | none =>
        rw [hy] at h
        cases h
      | some q =>
        rw [hy] at h
        cases h
        exact .parentheses hx (expression m e hx t f hu).1 hy

theorem reads_of_expression {l : Level} {c d : Cursor} {t : Tree}
    (h : expression builder l () c = .ok t () d) : Reads (.expression l) t c d :=
  (reads_rules.all.1 l c t d h).1

/-! ### The builder finds what the grammar reads -/

/-- What the rule for a phrase does where the phrase stands. A left-grouping level is stated twice:
the phrase by itself, and the phrase as the left operand of whatever operators follow it. -/
def Found : Phrase → Tree → Cursor → Cursor → Prop
  | .expression l, t, c, d =>
    (d.Closes l.rank → expression builder l () c = .ok t () d) ∧
      ∀ op : Operator, op.level? = some l → op.associativity = .left → d.Closes (l.rank + 1) →
        expression builder l () c = chain builder l t () d
  | .term, t, c, d => d.Closes 14 → term builder () c = .ok t () d
  | .atom, t, c, d => d.Closes 14 → parenthesized builder () c = .ok t () d

theorem Found.operand {l : Level} {t : Tree} {c d : Cursor} (h : Found (.operand l) t c d)
    (closes : d.Closes (l.rank + 1)) : operand builder l () c = .ok t () d := by
  rw [operand_eq]
  unfold Phrase.operand at h
  cases hl : l.next? with
  | some m =>
    rw [hl] at h
    have tighter := Level.rank_next? hl
    exact h.1 (closes.mono (by omega))
  | none =>
    rw [hl] at h
    have := l.rank_le
    exact h (closes.mono (by omega))

theorem Found.of_chain {l : Level} {t : Tree} {c d : Cursor}
    (whole : d.Closes (l.rank + 1) → expression builder l () c = chain builder l t () d) :
    Found (.expression l) t c d := by
  refine ⟨fun closes => ?_, fun _ _ _ => whole⟩
  rw [whole (closes.mono (by omega)), chain_of_none builder (closes.atLevel? (by omega))]

/-- A phrase that an operator of its own level follows is the left operand of that. -/
theorem Found.operated {op : Operator} {l : Level} {t : Tree} {c d e : Cursor}
    (h : Found (.expression l) t c d) (hl : op.level? = some l) (other : op.associativity = .left)
    (taken : d.take? .operator = some (op.symbol, e)) :
    expression builder l () c =
      (operated builder op l t d.offset () e).andThen fun v s f => chain builder l v s f := by
  rw [h.2 op hl other (.of_operator hl taken (by omega)),
    chain_of_some builder (Cursor.atLevel?_eq_some_iff.mpr ⟨hl, taken⟩)]

theorem Reads.atom_first {t : Tree} {c d : Cursor} (h : Reads .atom t c d) :
    ∃ k m, k.family ≠ .operator ∧ TokenKind.longest? k c.rest = some m := by
  cases h with
  | parentheses taken => exact ⟨.openParen, _, by decide, (Cursor.take?_eq_some_iff.mp taken).1⟩
  | number taken => exact ⟨.number, _, by decide, (Cursor.take?_eq_some_iff.mp taken).1⟩
  | name taken => exact ⟨.name, _, by decide, (Cursor.take?_eq_some_iff.mp taken).1⟩
  | updated taken => exact ⟨.name, _, by decide, (Cursor.take?_eq_some_iff.mp taken).1⟩

/-- No token of another family begins where one has been taken. -/
theorem take?_eq_none {k k' : TokenKind} {m : Text} {c d : Cursor} (taken : c.take? k = some (m, d))
    (apart : k'.family ≠ k.family) : c.take? k' = none :=
  Cursor.take?_eq_none_iff.mpr
    (TokenKind.longest?_eq_none (Cursor.take?_eq_some_iff.mp taken).1 apart)

section FirstToken

variable {σ β : Type} (A : Actions σ β) (s : σ) {k : TokenKind} {m : Text} {c d : Cursor}

theorem term_of_atom (first : k.longest? c.rest = some m) (apart : k.family ≠ .operator) :
    term A s c = parenthesized A s c := by
  have none := TokenKind.longest?_eq_none (l := .beforeOperand) first apart.symm
  rw [term_eq, Cursor.beforeOperand?_eq_none none]

theorem parenthesized_of_name (taken : c.take? .name = some (m, d)) :
    parenthesized A s c = if A.isVariable (A.name m s).1
      then updated A (A.name m s).1 (A.name m s).2 d else .ok (A.name m s).1 (A.name m s).2 d := by
  rw [parenthesized_eq, take?_eq_none taken (by decide)]
  show atom A s c = _
  rw [atom_eq, take?_eq_none taken (by decide), taken]

end FirstToken

theorem parenthesized_name {m : Text} {c d : Cursor} (taken : c.take? .name = some (m, d)) :
    parenthesized builder () c =
      if Environment.isConstant m then .ok (.name m) () d else updated builder (.name m) () d := by
  rw [parenthesized_of_name builder () taken]
  show (if builder.isVariable (.name m) then updated builder (.name m) () d
    else .ok (.name m) () d) = _
  rw [builder_isVariable]
  cases Environment.isConstant m <;> rfl

theorem Reads.found {p : Phrase} {t : Tree} {c d : Cursor} (h : Reads p t c d) : Found p t c d := by
  induction h with
  | @operand l t c d _ ih =>
    refine .of_chain fun closes => ?_
    rw [expression_eq, ih.operand closes]
    rfl
  | @leftGrouping op l t u c d e f hl arity other _ taken _ left right =>
    refine .of_chain fun closes => ?_
    rw [left.operated hl other taken]
    unfold operated rightOperand
    rw [if_neg (by omega), other]
    simp only
    rw [right.operand closes, Result.ok_andThen, builder_binary]
    rfl
  | @rightGrouping op l t u c d e f hl arity other _ taken _ left right =>
    refine ⟨fun closes => ?_, fun op' hl' other' => ?_⟩
    · rw [expression_eq, left.operand (.of_operator hl taken (by omega)), Result.ok_andThen,
        chain_of_some builder (Cursor.atLevel?_eq_some_iff.mpr ⟨hl, taken⟩)]
      unfold operated rightOperand
      rw [if_neg (by omega), other]
      simp only
      rw [right.1 closes, Result.ok_andThen, builder_binary, Result.ok_andThen,
        chain_of_none builder (closes.atLevel? (by omega))]
    · rw [Operator.associativity_eq hl' hl, other] at other'
      cases other'
  | @behind op l t c d e hl arity _ taken left =>
    have other := Operator.associativity_of_arity hl arity
    refine .of_chain fun closes => ?_
    rw [left.operated hl other taken]
    unfold operated
    rw [if_pos arity, builder_unary]
    rfl
  | @before op t c d e hop taken _ operand =>
    intro closes
    rw [term_eq, Cursor.beforeOperand?_eq_some_iff.mpr ⟨hop, taken⟩]
    simp only
    rw [operand closes, Result.ok_andThen, builder_unary]
  | @atom t c d atom ih =>
    intro closes
    obtain ⟨k, m, apart, hm⟩ := atom.atom_first
    rw [term_of_atom builder () hm apart]
    exact ih closes
  | @parentheses m n t c d e f opened _ closed inner =>
    intro _
    have done : e.Closes 0 :=
      .of_none (TokenKind.longest?_eq_none (Cursor.take?_eq_some_iff.mp closed).1 (by decide)) 0
    rw [parenthesized_eq, opened]
    simp only
    rw [inner.1 done, Result.ok_andThen, closed]
  | @number m c d taken =>
    intro _
    have numeral := TokenKind.longest?_language (Cursor.take?_eq_some_iff.mp taken).1
    obtain ⟨v, hv⟩ := Option.isSome_iff_exists.mp (Decimal.read?_isSome_of_isNumeral numeral)
    rw [parenthesized_eq, take?_eq_none taken (by decide)]
    show Grammar.atom builder () c = _
    rw [atom_eq, taken]
    simp only [builder, hv, Option.map_some]
  | @name m c d taken =>
    intro closes
    rw [parenthesized_name taken]
    split
    · rfl
    · rw [updated_eq, closes.afterVariable?]
  | @updated op m c d e taken hc hop found =>
    intro _
    rw [parenthesized_name taken, if_neg (by simp [hc]), updated_eq,
      Cursor.afterVariable?_eq_some_iff.mpr ⟨hop, found⟩]
    exact builder_unary op d.offset (.name m) e

/-- A phrase that nothing goes on with is read as its tree. -/
theorem Reads.expression {l : Level} {t : Tree} {c d : Cursor} (h : Reads (.expression l) t c d)
    (closes : d.Closes l.rank) : expression builder l () c = .ok t () d :=
  h.found.1 closes

end Grammar

end Calculator
