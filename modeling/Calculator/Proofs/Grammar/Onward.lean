import Calculator.Proofs.Grammar.Induction
import Calculator.Proofs.Token.Boundary
import Calculator.Proofs.Token.Operators
import Calculator.Proofs.Token.Within

/-!
# On behind a comma

The run on a text with a `,` behind it does what the run on the text alone does, and the chain of
commas goes on where that one has ended (`Grammar.expression_before_comma`). No other rule goes on
there: no tighter level has a comma, and in parentheses the text alone fails for want of a `)`.
-/

namespace Calculator

/-! ### Tokens before a comma -/

namespace Cursor

/-- The same place of the text with `tail` behind it. -/
def before (tail : Text) (c : Cursor) : Cursor :=
  { c with rest := c.rest ++ tail }

theorem start_append {tail : Text} (apart : Text.leadingBlank tail = []) (t : Text) :
    start (t ++ tail) = (start t).before tail := by
  simp only [start, before, Text.leadingBlank_append apart, Text.dropBlank_append apart]

theorem pass_before {tail : Text} (apart : Text.leadingBlank tail = []) {c : Cursor} {m : Text}
    (front : m <+: c.rest) (k : TokenKind) :
    (c.before tail).pass k m = (c.pass k m).before tail := by
  have behind : (c.rest ++ tail).drop m.length = c.rest.drop m.length ++ tail :=
    List.drop_append_of_le_length front.length_le
  simp only [pass, before, behind, Text.leadingBlank_append apart, Text.dropBlank_append apart]

variable {c d : Cursor} {k : TokenKind} {l : Level} {op : Operator} {b : Text}

theorem take?_before (hk : k.inExpression) (other : k ≠ .operator) (c : Cursor) (b : Text) :
    (c.before (',' :: b)).take? k = (c.take? k).map (Prod.map id (before (',' :: b))) := by
  have same : k.longest? (c.before (',' :: b)).rest = k.longest? c.rest :=
    TokenKind.longest?_append_comma hk other c.rest b
  cases hm : k.longest? c.rest with
  | none => rw [take?_eq_none_iff.mpr hm, take?_eq_none_iff.mpr (same.trans hm), Option.map_none]
  | some m =>
    rw [take?_eq_some_iff.mpr ⟨hm, rfl⟩, take?_eq_some_iff.mpr ⟨same.trans hm, rfl⟩,
      pass_before rfl (TokenKind.longest?_isPrefix hm)]
    rfl

theorem find?_before (hk : k.inExpression) (other : k ≠ .operator) (ops : List Operator) (c : Cursor)
    (b : Text) :
    (((c.before (',' :: b)).take? k).bind fun (m, d) => (Operator.find? ops m).map (·, d)) =
      ((c.take? k).bind fun (m, d) => (Operator.find? ops m).map (·, d)).map
        (Prod.map id (before (',' :: b))) := by
  rw [take?_before hk other]
  cases c.take? k with
  | none => rfl
  | some p => simp [Function.comp_def]

theorem beforeOperand?_before (c : Cursor) (b : Text) : (c.before (',' :: b)).beforeOperand? =
    c.beforeOperand?.map (Prod.map id (before (',' :: b))) :=
  find?_before rfl (by decide) Operator.beforeOperand c b

theorem afterVariable?_before (c : Cursor) (b : Text) : (c.before (',' :: b)).afterVariable? =
    c.afterVariable?.map (Prod.map id (before (',' :: b))) :=
  find?_before rfl (by decide) Operator.afterVariable c b

theorem atLevel?_before_of_some (h : c.atLevel? l = some (op, d)) (b : Text) :
    (c.before (',' :: b)).atLevel? l = some (op, d.before (',' :: b)) := by
  obtain ⟨hl, taken⟩ := atLevel?_eq_some_iff.mp h
  obtain ⟨hm, rfl⟩ := take?_eq_some_iff.mp taken
  have more : c.rest ≠ [] := by
    intro none
    rw [none, TokenKind.longest?_nil] at hm
    cases hm
  have same := (TokenKind.longest?_operator_append_comma more b).trans hm
  rw [← pass_before rfl (TokenKind.longest?_isPrefix hm)]
  exact atLevel?_eq_some_iff.mpr ⟨hl, take?_eq_some_iff.mpr ⟨same, rfl⟩⟩

/-- At the end of the text the comma is found, and it is of no tighter level. -/
theorem atLevel?_before_of_none (h : c.atLevel? l = none) (tighter : l ≠ .comma) (b : Text) :
    (c.before (',' :: b)).atLevel? l = none := by
  refine atLevel?_eq_none fun op hl hm => ?_
  by_cases ended : c.rest = []
  · have symbol : TokenKind.operator.longest? (c.before (',' :: b)).rest = some [','] := by
      rw [before, ended]
      exact TokenKind.longest?_operator_comma b
    have inside : ',' ∈ op.symbol := by
      rw [← Option.some.inj (symbol.symm.trans hm)]
      exact List.mem_singleton_self _
    obtain rfl := TokenKind.eq_comma_of_mem inside
    exact tighter (Option.some.inj hl).symm
  · have same := (TokenKind.longest?_operator_append_comma ended b).symm.trans hm
    cases h.symm.trans (atLevel?_eq_some_iff.mpr ⟨hl, take?_eq_some_iff.mpr ⟨same, rfl⟩⟩)

theorem atLevel?_of_closeParen {m : Text} (h : c.take? .closeParen = some (m, d)) (l : Level) :
    c.atLevel? l = none :=
  atLevel?_eq_none fun op _ hm =>
    absurd (TokenKind.family_eq hm (take?_eq_some_iff.mp h).1) (by decide)

end Cursor

namespace Grammar

variable {σ β : Type}

/-! ### How the two runs end -/

def Result.before (tail : Text) (r : Result σ β) : Result σ β :=
  { r with cursor := r.cursor.before tail }

/-- The second run goes on with `next` where the first one has ended, in the same state. Nothing is
asked of it if the first one has failed, unless at a write that is refused. -/
def Onward (tail : Text) (next : β → σ → Cursor → Result σ β) (r q : Result σ β) : Prop :=
  (∃ e, r.outcome = .error e ∧ e.fault.kind ≠ .immutableBinding) ∨ q = (r.before tail).andThen next

namespace Onward

variable {tail : Text} {next : β → σ → Cursor → Result σ β} {r q : Result σ β}
  {f g : β → σ → Cursor → Result σ β}

theorem same (h : q = r.before tail) : Onward tail .ok r q :=
  .inr (by rw [Result.andThen_ok, h])

theorem lost {fault : Fault} {n : Nat} {s : σ} {c : Cursor} (h : fault.kind = .syntactic) :
    Onward tail next (.fail fault n s c) q :=
  .inl ⟨⟨fault, n⟩, rfl, by rw [h]; decide⟩

theorem andThen {first : β → σ → Cursor → Result σ β} (h : Onward tail first r q)
    (go : ∀ v, Onward tail next (f v r.state r.cursor)
      ((first v r.state (r.cursor.before tail)).andThen g)) :
    Onward tail next (r.andThen f) (q.andThen g) := by
  obtain ⟨outcome, s, c⟩ := r
  rcases h with ⟨e, failed, other⟩ | rfl
  · obtain rfl : outcome = .error e := failed
    exact .inl ⟨e, rfl, other⟩
  · cases outcome with
    | error e => exact .inr rfl
    | ok v => exact go v

end Onward

/-! ### The rules -/

/-- What a run does before a comma that ends its text. -/
def BeforeComma (b : Text) (next : β → σ → Cursor → Result σ β) (run : Cursor → Result σ β)
    (c : Cursor) : Prop :=
  Onward (',' :: b) next (run c) (run (c.before (',' :: b)))

variable (A : Actions σ β)

theorem applyAt_before (op : Operator) (vs : List β) (n : Nat) (s : σ) (c : Cursor) (tail : Text) :
    applyAt A op vs n s (c.before tail) = (applyAt A op vs n s c).before tail := by
  rw [applyAt_eq, applyAt_eq]
  obtain ⟨_ | v, t⟩ := A.apply op n vs s <;> rfl

theorem updated_before (v : β) (s : σ) (c : Cursor) (b : Text) :
    updated A v s (c.before (',' :: b)) = (updated A v s c).before (',' :: b) := by
  rw [updated_eq, updated_eq, Cursor.afterVariable?_before]
  cases c.afterVariable? with
  | none => rfl
  | some p => exact applyAt_before A p.1 [v] c.offset s p.2 _

theorem atom_before (s : σ) (c : Cursor) (b : Text) :
    BeforeComma b .ok (atom A s) c := by
  unfold BeforeComma
  rw [atom_eq, atom_eq, Cursor.take?_before rfl (by decide), Cursor.take?_before rfl (by decide)]
  rcases c.take? .number with _ | ⟨m, d⟩
  · rcases c.take? .name with _ | ⟨m, d⟩
    · exact .lost rfl
    · refine .same ?_
      simp only [Option.map_none, Option.map_some, Prod.map_apply, id_eq]
      split
      · exact updated_before A _ _ d b
      · rfl
  · simp only [Option.map_some, Prod.map_apply, id_eq]
    cases A.number m with
    | none => exact .lost rfl
    | some v => exact .same rfl

/-- What a level does where a text ends, if a comma follows. -/
def onward : Level → β → σ → Cursor → Result σ β
  | .comma => chain A .comma
  | _ => Result.ok

theorem onward_of_ne {l : Level} (tighter : l ≠ .comma) : onward A l = Result.ok := by
  cases l <;> first | rfl | exact absurd rfl tighter

theorem operated_before {op : Operator} {l : Level} (v : β) (n : Nat) (s : σ) {c : Cursor} {b : Text}
    (hl : op.level? = some l) (expression : BeforeComma b (onward A l) (expression A l s) c)
    (operand : BeforeComma b .ok (operand A l s) c) :
    BeforeComma b .ok (operated A op l v n s) c := by
  unfold BeforeComma
  unfold operated
  split
  case isTrue => exact .same (applyAt_before A op [v] n s c _)
  case isFalse =>
    have right : BeforeComma b .ok (rightOperand A op l s) c := by
      unfold rightOperand
      split
      case h_1 right =>
        have tighter : l ≠ .comma := by
          rintro rfl
          cases right.symm.trans (Operator.associativity_eq hl (rfl : Operator.comma.level? = _))
        rwa [onward_of_ne A tighter] at expression
      case h_2 => exact operand
    exact right.andThen fun u => .same (applyAt_before A op [v, u] n _ _ _)

/-- The comma is passed by the chain of commas that is not in parentheses, and by no other rule. -/
theorem rules_before (b : Text) : RuleInduction
    (fun l c => ∀ s, BeforeComma b (onward A l) (expression A l s) c)
    (fun l c => ∀ s, BeforeComma b .ok (operand A l s) c)
    (fun l c => ∀ v s, BeforeComma b (onward A l) (chain A l v s) c)
    (fun c => ∀ s, BeforeComma b .ok (term A s) c)
    (fun c => ∀ s, BeforeComma b .ok (parenthesized A s) c) where
  expression l c operand chain s := by
    unfold BeforeComma
    rw [expression_eq, expression_eq]
    exact (operand s).andThen fun v => chain _ (remaining_operand A l s c) v _
  operand l c expression term s := by
    unfold BeforeComma
    rw [operand_eq, operand_eq]
    cases hl : l.next? with
    | none => exact term hl s
    | some m =>
      have tighter : m ≠ .comma := by
        rintro rfl
        cases Level.rank_next? hl
      have read := expression m hl s
      rwa [onward_of_ne A tighter] at read
  chain l c called v s := by
    unfold BeforeComma
    cases hx : c.atLevel? l with
    | none =>
      rw [chain_of_none A hx]
      by_cases outermost : l = .comma
      · subst outermost
        exact .inr rfl
      · rw [chain_of_none A (Cursor.atLevel?_before_of_none hx outermost b), onward_of_ne A outermost]
        exact .same rfl
    | some p =>
      obtain ⟨op, d⟩ := p
      obtain ⟨expression, operand, chain⟩ := called op d hx
      rw [chain_of_some A hx, chain_of_some A (Cursor.atLevel?_before_of_some hx b)]
      have hl := (Cursor.atLevel?_eq_some_iff.mp hx).1
      exact (operated_before A v c.offset s hl (expression s) (operand s)).andThen fun u =>
        chain _ (remaining_operated A op l _ _ _ d) u _
  term c term parenthesized s := by
    unfold BeforeComma
    rw [term_eq, term_eq, Cursor.beforeOperand?_before]
    cases hx : c.beforeOperand? with
    | none => exact parenthesized s
    | some p =>
      exact (term p.1 p.2 hx s).andThen fun v => .same (applyAt_before A p.1 [v] c.offset _ _ _)
  parenthesized c expression s := by
    unfold BeforeComma
    rw [parenthesized_eq, parenthesized_eq, Cursor.take?_before rfl (by decide)]
    cases hx : c.take? .openParen with
    | none => exact atom_before A s c b
    | some p =>
      refine (expression p.1 p.2 hx s).andThen fun v => ?_
      generalize Grammar.expression A .loosest s p.2 = r
      rcases closed : r.cursor.take? .closeParen with _ | ⟨m, f⟩
      · exact .lost rfl
      · have closed' := Cursor.take?_before (k := .closeParen) rfl (by decide) r.cursor b
        rw [closed] at closed'
        refine .same ?_
        show (chain A .comma v r.state (r.cursor.before (',' :: b))).andThen _ = _
        rw [chain_of_none A (Cursor.atLevel?_of_closeParen closed' .comma), Result.ok_andThen,
          closed']
        rfl

theorem expression_before_comma (s : σ) (c : Cursor) (b : Text) :
    Onward (',' :: b) (chain A .comma) (expression A .loosest s c)
      (expression A .loosest s (c.before (',' :: b))) :=
  (rules_before A b).all.1 .loosest c s

end Grammar

end Calculator
