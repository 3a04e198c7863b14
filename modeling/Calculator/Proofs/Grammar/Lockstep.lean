import Calculator.Proofs.Grammar.Induction
import Calculator.Proofs.Grammar.Place
import Calculator.Proofs.Operator.Apply
import Mathlib.Data.List.Forall2

/-!
# Two runs in lockstep

A `Lockstep` relates two kinds of actions, and the cursors they run at, closely enough that the
rules decide alike on both sides: they pass the same tokens, apply the same operators and fail
together. Cursors are related at a place, and only tokens that are looked for there need to be the
same. What is asked of single actions and tokens then holds of whole runs (`Lockstep.expression`,
`Lockstep.statements`). The second run may be let go where the first one misses a parenthesis.
-/

namespace Calculator.Grammar

variable {σ τ β γ : Type}

/-- Both succeed with related values, or both fail with related errors. -/
def Alike {ε δ β γ : Type} (value : β → γ → Prop) (error : ε → δ → Prop) :
    Except ε β → Except δ γ → Prop
  | .ok v, .ok u => value v u
  | .error e, .error f => error e f
  | _, _ => False

theorem Alike.mono {ε δ : Type} {value value' : β → γ → Prop} {error error' : ε → δ → Prop}
    {r : Except ε β} {q : Except δ γ} (h : Alike value error r q)
    (values : ∀ {v u}, value v u → value' v u) (errors : ∀ {e f}, error e f → error' e f) :
    Alike value' error' r q := by
  rcases r with e | v <;> rcases q with f | u
  · exact errors h
  · exact h
  · exact h
  · exact values h

theorem Alike.refl {ε β : Type} (r : Except ε β) : Alike Eq Eq r r := by
  cases r <;> exact rfl

/-! Equal states and values go on as equal ones. -/

theorem Actions.number_alike (A : Actions σ β) (m : Text) :
    (A.number m = none ∧ A.number m = none) ∨
      ∃ v u, A.number m = some v ∧ A.number m = some u ∧ v = u := by
  cases A.number m with
  | none => exact .inl ⟨rfl, rfl⟩
  | some v => exact .inr ⟨v, v, rfl, rfl, rfl⟩

theorem Actions.name_alike (A : Actions σ β) {s t : σ} (m : Text) (same : s = t) :
    ∃ _ : Unit, True ∧ (A.name m s).2 = (A.name m t).2 ∧ (A.name m s).1 = (A.name m t).1 := by
  subst same
  exact ⟨(), trivial, rfl, rfl⟩

theorem Actions.isVariable_alike (A : Actions σ β) {v u : β} (same : v = u) :
    A.isVariable v = A.isVariable u :=
  congrArg A.isVariable same

/-- An action that does not know where its operator stands. -/
theorem Actions.apply_alike (A : Actions σ β) {op : Operator} {m n : Nat} {vs us : List β} {s t : σ}
    {error : Fault → Fault → Prop} (placeless : A.apply op m = A.apply op n) (same : s = t)
    (alike : List.Forall₂ Eq vs us) (faults : ∀ f, (A.apply op m vs s).1 = .error f → error f f) :
    ∃ _ : Unit, True ∧ (A.apply op m vs s).2 = (A.apply op n us t).2 ∧
      Alike Eq error (A.apply op m vs s).1 (A.apply op n us t).1 := by
  subst same
  obtain rfl : vs = us := List.forall₂_eq_eq_eq ▸ alike
  rw [← placeless]
  refine ⟨(), trivial, rfl, ?_⟩
  cases applied : (A.apply op m vs s).1 with
  | ok v => exact rfl
  | error f => exact faults f applied

/-- Both find the same, at cursors that are related as what is found says, or neither finds
anything. -/
def FindAlike {α : Type} (cursor : α → Cursor → Cursor → Prop) (x y : Option (α × Cursor)) : Prop :=
  (x = none ∧ y = none) ∨
    ∃ a c d, x = some (a, c) ∧ y = some (a, d) ∧ cursor a c d

/-- The relations between two runs, over worlds `ω` that grow as the runs go on. -/
structure Lockstep (ω : Type) (A : Actions σ β) (B : Actions τ γ) where
  grows : ω → ω → Prop
  grows_refl : ∀ w, grows w w
  grows_trans : ∀ {w x y}, grows w x → grows x y → grows w y
  state : ω → σ → τ → Prop
  value : ω → β → γ → Prop
  cursor : Place → Cursor → Cursor → Prop
  error : Error → Error → Prop
  /-- Errors of the first run that nothing is asked of the second behind. -/
  lost : Error → Prop
  value_mono : ∀ {w x v u}, grows w x → value w v u → value x v u
  /-- The same tokens begin at related cursors. -/
  longest? : ∀ {p c d}, cursor p c d → ∀ k : TokenKind, k.inExpression → k ≠ .closeParen →
    p.admits k → k.longest? c.rest = k.longest? d.rest
  closeParen : ∀ {c d}, cursor .behindOperand c d →
    TokenKind.closeParen.longest? c.rest = TokenKind.closeParen.longest? d.rest ∨
      TokenKind.closeParen.longest? c.rest = none ∧
        lost ⟨.unclosedParenthesis c.describeNext, c.offset⟩
  pass : ∀ {p q c d k m}, cursor p c d → k.inExpression → k.longest? c.rest = some m →
    p.Leads k m q → cursor q (c.pass k m) (d.pass k m)
  expectedOperand : ∀ {p c d}, cursor p c d →
    error ⟨.expectedOperand c.describeNext, c.offset⟩ ⟨.expectedOperand d.describeNext, d.offset⟩
  unclosedParenthesis : ∀ {p c d}, cursor p c d → error
    ⟨.unclosedParenthesis c.describeNext, c.offset⟩ ⟨.unclosedParenthesis d.describeNext, d.offset⟩
  invalidNumber : ∀ {p c d} m, cursor p c d →
    error ⟨.invalidNumber m, c.offset⟩ ⟨.invalidNumber m, d.offset⟩
  number : ∀ w m, (A.number m = none ∧ B.number m = none) ∨
    ∃ v u, A.number m = some v ∧ B.number m = some u ∧ value w v u
  name : ∀ {w s t} m, state w s t → ∃ x, grows w x ∧ state x (A.name m s).2 (B.name m t).2 ∧
    value x (A.name m s).1 (B.name m t).1
  isVariable : ∀ {w v u}, value w v u → A.isVariable v = B.isVariable u
  /-- The rules give every operator all its operands. -/
  apply : ∀ {w s t p c d vs us op}, vs.length = op.arity → state w s t → cursor p c d →
    List.Forall₂ (value w) vs us → ∃ x, grows w x ∧
      state x (A.apply op c.offset vs s).2 (B.apply op d.offset us t).2 ∧
      Alike (value x) (fun f g => error ⟨f, c.offset⟩ ⟨g, d.offset⟩)
        (A.apply op c.offset vs s).1 (B.apply op d.offset us t).1

namespace Lockstep

variable {ω : Type} {A : Actions σ β} {B : Actions τ γ} (L : Lockstep ω A B)

/-- Two runs that have ended alike, in some world from `w` on: behind an operand, or at some place
with an error. Or the second run is let go. -/
def Ends {β γ : Type} (value : ω → β → γ → Prop) (w : ω) (r : Result σ β) (q : Result τ γ) : Prop :=
  (∃ e, r.outcome = .error e ∧ L.lost e) ∨
    ∃ x p, L.grows w x ∧ L.state x r.state q.state ∧ L.cursor p r.cursor q.cursor ∧
      Alike (fun v u => p = .behindOperand ∧ value x v u) L.error r.outcome q.outcome

variable {L} {w : ω} {s : σ} {t : τ} {p : Place} {c d : Cursor}

theorem Ends.ok {β γ : Type} {value : ω → β → γ → Prop} {v : β} {u : γ} (hs : L.state w s t)
    (hc : L.cursor .behindOperand c d) (hv : value w v u) :
    L.Ends value w (.ok v s c) (.ok u t d) :=
  .inr ⟨w, .behindOperand, L.grows_refl w, hs, hc, rfl, hv⟩

theorem Ends.fail {β γ : Type} {value : ω → β → γ → Prop} {f g : Fault} {m n : Nat}
    (hs : L.state w s t) (hc : L.cursor p c d) (he : L.error ⟨f, m⟩ ⟨g, n⟩) :
    L.Ends value w (.fail f m s c) (.fail g n t d) :=
  .inr ⟨w, p, L.grows_refl w, hs, hc, he⟩

theorem Ends.alike {β γ : Type} {value : ω → β → γ → Prop} {r : Result σ β} {q : Result τ γ}
    (h : L.Ends value w r q) (kept : ∀ e, r.outcome = .error e → ¬ L.lost e) :
    ∃ x, L.grows w x ∧ L.state x r.state q.state ∧
      (∃ p, L.cursor p r.cursor q.cursor) ∧ Alike (value x) L.error r.outcome q.outcome := by
  rcases h with ⟨e, he, lost⟩ | ⟨x, p, hle, hs, hc, ho⟩
  · exact absurd lost (kept e he)
  · exact ⟨x, hle, hs, ⟨p, hc⟩, ho.mono And.right id⟩

theorem Ends.mono {β γ : Type} {value : ω → β → γ → Prop} {x : ω} {r : Result σ β} {q : Result τ γ}
    (hle : L.grows w x) (h : L.Ends value x r q) : L.Ends value w r q :=
  h.imp_right fun ⟨y, p, hy, rest⟩ => ⟨y, p, L.grows_trans hle hy, rest⟩

theorem Ends.andThen {β γ β' γ' : Type} {value : ω → β → γ → Prop} {value' : ω → β' → γ' → Prop}
    {r : Result σ β} {q : Result τ γ} {f : β → σ → Cursor → Result σ β'}
    {g : γ → τ → Cursor → Result τ γ'} (h : L.Ends value w r q)
    (next : ∀ x v u, L.grows w x → L.state x r.state q.state →
      L.cursor .behindOperand r.cursor q.cursor → value x v u →
      L.Ends value' x (f v r.state r.cursor) (g u q.state q.cursor)) :
    L.Ends value' w (r.andThen f) (q.andThen g) := by
  obtain ⟨outcome, s, c⟩ := r
  obtain ⟨outcome', t, d⟩ := q
  rcases h with ⟨e, he, lost⟩ | ⟨x, p, hle, hs, hc, ho⟩
  · obtain rfl : outcome = .error e := he
    exact .inl ⟨e, rfl, lost⟩
  cases outcome with
  | ok v =>
    cases outcome' with
    | ok u =>
      obtain ⟨rfl, hv⟩ := ho
      exact (next x v u hle hs hc hv).mono hle
    | error e => exact ho.elim
  | error e =>
    cases outcome' with
    | ok u => exact ho.elim
    | error f => exact .inr ⟨x, p, hle, hs, hc, ho⟩

/-! ### Tokens and operators at related cursors -/

theorem take?_of_longest? {q : Place} {k : TokenKind} (hc : L.cursor p c d) (hk : k.inExpression)
    (leads : ∀ m, p.Leads k m q) (same : k.longest? c.rest = k.longest? d.rest) :
    FindAlike (fun _ => L.cursor q) (c.take? k) (d.take? k) := by
  cases hm : k.longest? c.rest with
  | none =>
    exact .inl ⟨Cursor.take?_eq_none_iff.mpr hm, Cursor.take?_eq_none_iff.mpr (same ▸ hm)⟩
  | some m =>
    exact .inr ⟨m, _, _, Cursor.take?_eq_some_iff.mpr ⟨hm, rfl⟩,
      Cursor.take?_eq_some_iff.mpr ⟨same ▸ hm, rfl⟩, L.pass hc hk hm (leads m)⟩

theorem take? {q : Place} {k : TokenKind} (hc : L.cursor p c d) (hk : k.inExpression)
    (other : k ≠ .closeParen) (leads : ∀ m, p.Leads k m q) :
    FindAlike (fun _ => L.cursor q) (c.take? k) (d.take? k) :=
  take?_of_longest? hc hk leads (L.longest? hc k hk other (leads []).admits)

/-- Operators of one kind of place, found by their symbols. -/
theorem symbol? {k : TokenKind} {P : Operator → Prop} {q : Operator → Place}
    {x y : Option (Operator × Cursor)} (hc : L.cursor p c d) (hk : k.inExpression)
    (other : k ≠ .closeParen) (ha : p.admits k) (leads : ∀ op, P op → p.Leads k op.symbol (q op))
    (hx : ∀ {op e}, x = some (op, e) ↔ P op ∧ c.take? k = some (op.symbol, e))
    (hy : ∀ {op e}, y = some (op, e) ↔ P op ∧ d.take? k = some (op.symbol, e)) :
    FindAlike (fun op => L.cursor (q op)) x y := by
  have same := L.longest? hc k hk other ha
  cases x with
  | some found =>
    obtain ⟨op, e⟩ := found
    obtain ⟨hop, taken⟩ := hx.mp rfl
    obtain ⟨hm, rfl⟩ := Cursor.take?_eq_some_iff.mp taken
    have taken' := Cursor.take?_eq_some_iff.mpr ⟨same ▸ hm, rfl⟩
    exact .inr ⟨op, _, _, rfl, hy.mpr ⟨hop, taken'⟩, L.pass hc hk hm (leads op hop)⟩
  | none =>
    cases y with
    | none => exact .inl ⟨rfl, rfl⟩
    | some found =>
      obtain ⟨hop, taken⟩ := hy.mp rfl
      obtain ⟨hm, -⟩ := Cursor.take?_eq_some_iff.mp taken
      cases hx.mpr ⟨hop, Cursor.take?_eq_some_iff.mpr ⟨same ▸ hm, rfl⟩⟩

theorem beforeOperand? (hc : L.cursor .beforeOperand c d) :
    FindAlike (fun _ => L.cursor .beforeOperand) c.beforeOperand? d.beforeOperand? :=
  symbol? hc rfl (by decide) rfl (fun _ _ => ⟨rfl, rfl⟩) Cursor.beforeOperand?_eq_some_iff
    Cursor.beforeOperand?_eq_some_iff

theorem afterVariable? (hc : L.cursor .behindOperand c d) :
    FindAlike (fun _ => L.cursor .behindOperand) c.afterVariable? d.afterVariable? :=
  symbol? hc rfl (by decide) rfl (fun _ _ => ⟨rfl, rfl⟩) Cursor.afterVariable?_eq_some_iff
    Cursor.afterVariable?_eq_some_iff

theorem atLevel? (hc : L.cursor .behindOperand c d) (l : Level) :
    FindAlike (fun op => L.cursor op.follow) (c.atLevel? l) (d.atLevel? l) :=
  symbol? hc rfl (by decide) rfl (fun _ hl => ⟨rfl, Place.after?_symbol hl⟩)
    Cursor.atLevel?_eq_some_iff Cursor.atLevel?_eq_some_iff

/-! ### The rules -/

theorem applyAt {op : Operator} {vs : List β} {us : List γ} {e f : Cursor}
    (hl : vs.length = op.arity) (hs : L.state w s t) (hc : L.cursor p c d)
    (hv : List.Forall₂ (L.value w) vs us) (he : L.cursor .behindOperand e f) :
    L.Ends L.value w (applyAt A op vs c.offset s e) (applyAt B op us d.offset t f) := by
  obtain ⟨x, hle, hs, ho⟩ := L.apply hl hs hc hv
  rw [applyAt_eq, applyAt_eq]
  generalize A.apply op c.offset vs s = r at hs ho ⊢
  generalize B.apply op d.offset us t = r' at hs ho ⊢
  obtain ⟨_ | v, s'⟩ := r <;> obtain ⟨_ | u, t'⟩ := r'
  · exact Ends.mono hle (.fail hs he ho)
  · exact False.elim ho
  · exact False.elim ho
  · exact Ends.mono hle (.ok hs he ho)

theorem updated {v : β} {u : γ} (hs : L.state w s t) (hc : L.cursor .behindOperand c d)
    (hv : L.value w v u) :
    L.Ends L.value w (updated A v s c) (updated B u t d) := by
  rw [updated_eq, updated_eq]
  rcases afterVariable? hc with ⟨hx, hy⟩ | ⟨op, e, f, hx, hy, he⟩ <;> simp only [hx, hy]
  · exact .ok hs hc hv
  · have arity := Operator.arity_of_afterVariable (Cursor.afterVariable?_eq_some_iff.mp hx).1
    exact applyAt arity.symm hs hc (.cons hv .nil) he

theorem atom (hs : L.state w s t) (hc : L.cursor .beforeOperand c d) :
    L.Ends L.value w (atom A s c) (atom B t d) := by
  rw [atom_eq, atom_eq]
  rcases take? hc (k := .number) rfl (by decide) fun _ => ⟨rfl, rfl⟩
    with ⟨hx, hy⟩ | ⟨m, e, f, hx, hy, he⟩ <;> simp only [hx, hy]
  · rcases take? hc (k := .name) rfl (by decide) fun _ => ⟨rfl, rfl⟩
      with ⟨hx, hy⟩ | ⟨m, e, f, hx, hy, he⟩ <;> simp only [hx, hy]
    · exact .fail hs hc (L.expectedOperand hc)
    · obtain ⟨x, hle, hs, hv⟩ := L.name m hs
      rw [L.isVariable hv]
      refine Ends.mono hle ?_
      split
      · exact updated hs he hv
      · exact .ok hs he hv
  · rcases L.number w m with ⟨hx, hy⟩ | ⟨v, u, hx, hy, hv⟩ <;> simp only [hx, hy]
    · exact .fail hs he (L.invalidNumber m hc)
    · exact .ok hs he hv

theorem operated (op : Operator) {l : Level} {v : β} {u : γ} {e f : Cursor} (hs : L.state w s t)
    (hc : L.cursor p c d) (hv : L.value w v u) (he : L.cursor op.follow e f)
    (expression : L.cursor .beforeOperand e f →
      L.Ends L.value w (expression A l s e) (expression B l t f))
    (operand : L.cursor .beforeOperand e f →
      L.Ends L.value w (operand A l s e) (operand B l t f)) :
    L.Ends L.value w (operated A op l v c.offset s e) (operated B op l u d.offset t f) := by
  unfold Grammar.operated
  split
  case isTrue arity =>
    rw [Operator.follow, if_pos arity] at he
    exact applyAt arity.symm hs hc (.cons hv .nil) he
  case isFalse arity =>
    have binary : op.arity = 2 := op.arity_eq.resolve_left arity
    rw [Operator.follow, if_neg arity] at he
    have right : L.Ends L.value w (rightOperand A op l s e) (rightOperand B op l t f) := by
      unfold rightOperand
      split
      · exact expression he
      · exact operand he
    exact right.andThen fun x y z hle hs' hc' hv' =>
      applyAt binary.symm hs' hc (.cons (L.value_mono hle hv) (.cons hv' .nil)) hc'

variable (L)

/-- What runs from related states at related cursors end in; only a chain begins behind an
operand. -/
theorem rules : RuleInduction
    (fun l c => ∀ w s t d, L.state w s t → L.cursor .beforeOperand c d →
      L.Ends L.value w (expression A l s c) (expression B l t d))
    (fun l c => ∀ w s t d, L.state w s t → L.cursor .beforeOperand c d →
      L.Ends L.value w (operand A l s c) (operand B l t d))
    (fun l c => ∀ w v u s t d, L.value w v u → L.state w s t →
      L.cursor .behindOperand c d → L.Ends L.value w (chain A l v s c) (chain B l u t d))
    (fun c => ∀ w s t d, L.state w s t → L.cursor .beforeOperand c d →
      L.Ends L.value w (term A s c) (term B t d))
    (fun c => ∀ w s t d, L.state w s t → L.cursor .beforeOperand c d →
      L.Ends L.value w (parenthesized A s c) (parenthesized B t d)) where
  expression l c operand chain w s t d hs hc := by
    rw [expression_eq, expression_eq]
    exact (operand w s t d hs hc).andThen fun x v u _ hs hc hv =>
      chain _ (remaining_operand A l s c) x v u _ _ _ hv hs hc
  operand l c expression term w s t d hs hc := by
    rw [operand_eq, operand_eq]
    cases hl : l.next? with
    | some m => exact expression m hl w s t d hs hc
    | none => exact term hl w s t d hs hc
  chain l c called w v u s t d hv hs hc := by
    rcases atLevel? hc l with ⟨hx, hy⟩ | ⟨op, e, f, hx, hy, he⟩
    · rw [chain_of_none A hx, chain_of_none B hy]
      exact .ok hs hc hv
    rw [chain_of_some A hx, chain_of_some B hy]
    obtain ⟨expression, operand, chain⟩ := called op e hx
    refine (operated op hs hc hv he (expression w s t f hs) (operand w s t f hs)).andThen ?_
    exact fun x v u _ hs hc hv =>
      chain _ (remaining_operated A op l _ _ _ e) x v u _ _ _ hv hs hc
  term c term parenthesized w s t d hs hc := by
    rw [term_eq, term_eq]
    rcases beforeOperand? hc with ⟨hx, hy⟩ | ⟨op, e, f, hx, hy, he⟩ <;> simp only [hx, hy]
    · exact parenthesized w s t d hs hc
    · have arity := Operator.arity_of_beforeOperand (Cursor.beforeOperand?_eq_some_iff.mp hx).1
      exact (term op e hx w s t f hs he).andThen fun x v u _ hs' hc' hv =>
        applyAt arity.symm hs' hc (.cons hv .nil) hc'
  parenthesized c expression w s t d hs hc := by
    rw [parenthesized_eq, parenthesized_eq]
    rcases take? hc (k := .openParen) rfl (by decide) fun _ => ⟨rfl, rfl⟩
      with ⟨hx, hy⟩ | ⟨m, e, f, hx, hy, he⟩ <;> simp only [hx, hy]
    · exact atom hs hc
    refine (expression m e hx w s t f hs he).andThen fun x v u _ hs hc hv => ?_
    rcases L.closeParen hc with same | ⟨missing, lost⟩
    · rcases take?_of_longest? hc (k := .closeParen) rfl (fun _ => ⟨rfl, rfl⟩) same
        with ⟨hx, hy⟩ | ⟨m, e, f, hx, hy, he⟩ <;> simp only [hx, hy]
      · exact .fail hs hc (L.unclosedParenthesis hc)
      · exact .ok hs he hv
    · simp only [Cursor.take?_eq_none_iff.mpr missing]
      exact .inl ⟨_, rfl, lost⟩

theorem expression (l : Level) (hs : L.state w s t) (hc : L.cursor .beforeOperand c d) :
    L.Ends L.value w (expression A l s c) (expression B l t d) :=
  L.rules.all.1 l c w s t d hs hc

/-! ### Statements -/

/-- Separators and the end of the text stand at related cursors together. -/
structure Separates : Prop where
  atEnd : ∀ {p c d}, L.cursor p c d → c.atEnd = d.atEnd
  separator : ∀ {c d}, L.cursor .behindOperand c d →
    FindAlike (fun _ => L.cursor .beforeOperand) (c.take? .separator) (d.take? .separator)
  /-- At the end of the text a separator is behind an operand. -/
  ended : ∀ {c d}, L.cursor .beforeOperand c d → c.atEnd → L.cursor .behindOperand c d
  unexpectedCharacter : ∀ {p c d}, L.cursor p c d → L.error
    ⟨.unexpectedCharacter c.describeNext, c.offset⟩ ⟨.unexpectedCharacter d.describeNext, d.offset⟩

def LastAlike (w : ω) (b : Statements β) (b' : Statements γ) : Prop :=
  L.value w b.last b'.last

variable {L}

theorem moreStatements (sep : L.Separates) {b : Statements β} {b' : Statements γ}
    (hs : L.state w s t) (hc : L.cursor .behindOperand c d) (hv : L.LastAlike w b b') :
    L.Ends L.LastAlike w (moreStatements A b s c) (moreStatements B b' t d) := by
  induction c using Cursor.induction generalizing w s t d b b' with
  | step c ih =>
    rw [moreStatements_eq, moreStatements_eq, sep.atEnd hc]
    split
    · exact .ok hs hc hv
    rcases sep.separator hc with ⟨hx, hy⟩ | ⟨m, e, f, hx, hy, he⟩ <;> simp only [hx, hy]
    · exact .fail hs hc (sep.unexpectedCharacter hc)
    have passed := Cursor.remaining_take? hx
    rw [← sep.atEnd he]
    split
    case isTrue last => exact .ok hs (sep.ended he last) hv
    have reached := remaining_expression A .loosest s e
    exact (L.expression .loosest hs he).andThen fun x v u _ hs hc hv =>
      ih _ (by omega) hs hc hv

theorem statements (sep : L.Separates) (hs : L.state w s t) (hc : L.cursor .beforeOperand c d) :
    L.Ends L.LastAlike w (statements A s c) (statements B t d) :=
  (L.expression .loosest hs hc).andThen fun _ _ _ _ hs hc hv =>
    moreStatements sep hs hc hv

theorem run (sep : L.Separates) (rule : Rule) (hs : L.state w s t)
    (hc : L.cursor .beforeOperand c d) :
    L.Ends L.value w (rule.run A s c) (rule.run B t d) := by
  cases rule with
  | expression l => exact L.expression l hs hc
  | term => exact L.rules.all.2.2.2.1 c w s t d hs hc
  | parenthesized => exact L.rules.all.2.2.2.2 c w s t d hs hc
  | atom => exact atom hs hc
  | statements => exact (statements sep hs hc).andThen fun _ _ _ _ hs hc hv => .ok hs hc hv

end Lockstep

end Calculator.Grammar
