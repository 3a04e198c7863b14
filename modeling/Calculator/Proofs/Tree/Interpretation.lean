import Calculator.Proofs.Session.Names
import Calculator.Tree.Builder

/-!
# Evaluation is interpretation of the tree

An evaluation applies its operators while it reads. It does what reading the whole text into trees
and interpreting them afterwards does (`Session.evaluate_refines_read`): the rules run once with the
actions of a session and once with those that build trees, and `Mirrors` relates the two results.
-/

namespace Calculator

/-- A write to a constant or to a computed value, reported at the operator. -/
def Error.RefusesWrite (e : Error) : Prop :=
  ∃ op n, Grammar.writes op ∧ e = ⟨.immutableBinding op.symbol, n⟩

namespace Session

/-- The binding that the last statement of a text ends in. -/
def result (s : Session) (source : Text) : Except Error Binding × Session :=
  let r := Grammar.statements actions s (.start source)
  (r.outcome.map Grammar.Statements.last, r.state)

def valued (r : Except Error Binding × Session) : Except Error Float × Session :=
  (r.1.map r.2.read, r.2)

theorem valued_eq_error {r : Except Error Binding × Session} {e : Error}
    (h : (valued r).1 = .error e) : r.1 = .error e := by
  obtain ⟨_ | b, s⟩ := r
  · exact congrArg Except.error (Except.error.inj h)
  · cases h

theorem evaluate_eq (s : Session) (source : Text) : s.evaluate source = valued (s.result source) := by
  unfold evaluate result
  generalize Grammar.statements actions s (.start source) = r
  obtain ⟨_ | b, s', c⟩ := r <;> rfl

theorem Sound.result {s : Session} (h : s.Sound) (source : Text) : (s.result source).2.Sound := by
  have kept := h.evaluate source
  rwa [evaluate_eq] at kept

/-- A text that is taken up by one expression does what the expression does. -/
theorem result_of_expression {s : Session} {source : Text} {r : Grammar.Result Session Binding}
    (read : Grammar.expression actions .loosest s (.start source) = r)
    (whole : ∀ v, r.outcome = .ok v → r.cursor.rest = []) :
    s.result source = (r.outcome, r.state) := by
  unfold result Grammar.statements
  rw [read]
  obtain ⟨e | v, t, c⟩ := r
  · rfl
  · have atEnd : c.atEnd := List.isEmpty_iff.mpr (whole v rfl)
    dsimp only [Grammar.Result.andThen]
    rw [Grammar.moreStatements_eq, if_pos atEnd]
    rfl

/-- The trees of a text one after the other; the value is that of the last. -/
def run (s : Session) (trees : List Tree) : Except Error Float × Session :=
  valued (Tree.interpretAll (.fixed notANumber) trees s)

/-! ### Operators in a session -/

variable {s : Session} {op : Operator}

theorem applyAt_of_permits (vs : List Binding) (hl : vs.length = op.arity)
    (hp : op.Permits (vs.map Binding.isVariable)) (n : Nat) :
    ∃ b m, s.applyAt op n vs = (.ok b, { s with memory := m }) ∧
      b.isVariable = op.yieldsVariable (vs.map Binding.isVariable) := by
  obtain ⟨b, m, happly, same⟩ := Operator.apply_of_permits hl hp s.memory
  refine ⟨b, m, ?_, same⟩
  rw [applyAt, apply, happly]

theorem applyAt_of_not_permits {vs : List Binding} (hl : vs.length = op.arity)
    (hp : ¬ op.Permits (vs.map Binding.isVariable)) (n : Nat) :
    s.applyAt op n vs = (.error ⟨.immutableBinding op.symbol, n⟩, s) := by
  rw [applyAt, apply, Operator.apply_of_not_permits hl hp]

end Session

namespace Grammar

variable {σ β γ : Type}

theorem applyAt_actions (op : Operator) (vs : List Binding) (n : Nat) (s : Session) (c : Cursor) :
    applyAt Session.actions op vs n s c = ⟨(s.applyAt op n vs).1, (s.applyAt op n vs).2, c⟩ := by
  rw [applyAt_eq]
  simp only [Session.applyAt, Session.actions]
  generalize s.apply op vs = r
  obtain ⟨_ | b, s'⟩ := r <;> rfl

theorem applyAt_of_ok {op : Operator} {vs : List Binding} {s : Session} {b : Binding} {m : Memory}
    (applied : op.apply vs s.memory = (.ok b, m)) (n : Nat) (c : Cursor) :
    applyAt Session.actions op vs n s c = .ok b { s with memory := m } c := by
  rw [applyAt_actions, Session.applyAt, Session.apply, applied]
  rfl

def Result.map (f : β → γ) (r : Result σ β) : Result σ γ :=
  ⟨r.outcome.map f, r.state, r.cursor⟩

theorem Result.map_andThen {δ : Type} (r : Result σ β) (f : β → σ → Cursor → Result σ γ)
    (g : γ → δ) : (r.andThen f).map g = r.andThen fun v s c => (f v s c).map g := by
  obtain ⟨_ | v, s, c⟩ := r <;> rfl

/-- The values of the statements in the order of the text. -/
def Statements.inOrder (b : Statements β) : List β :=
  (b.last :: b.earlier).reverse

theorem Statements.inOrder_add (b : Statements β) (v : β) :
    (b.add v).inOrder = b.inOrder ++ [v] := by
  simp [inOrder, add]

/-- Statements that are done stay in front. -/
theorem moreStatements_inOrder {A : Actions σ β} {done b : Statements β} {s t : σ} {c d : Cursor}
    (h : moreStatements A done s c = .ok b t d) : done.inOrder <+: b.inOrder := by
  induction c using Cursor.induction generalizing done s with
  | step c ih =>
    rw [moreStatements_eq] at h
    split at h
    · cases h
      exact List.prefix_rfl
    cases taken : c.take? .separator with
    | none =>
      rw [taken] at h
      cases h
    | some p =>
      have passed := Cursor.remaining_take? taken
      rw [taken] at h
      dsimp only at h
      split at h
      · cases h
        exact List.prefix_rfl
      obtain ⟨v, s', e, hr, h⟩ := andThen_eq_ok.mp h
      have reached := remaining_expression A .loosest s p.2
      rw [hr] at reached
      have later := ih e (Nat.lt_of_le_of_lt reached passed) h
      rw [Statements.inOrder_add] at later
      exact (List.prefix_append _ _).trans later

end Grammar

namespace Tree

open Grammar

theorem interpret_name (m : Text) (s : Session) :
    (name m).interpret s = (.ok (s.lookup m).1, (s.lookup m).2) := rfl

theorem interpretAll_append (b : Binding) (trees more : List Tree) (s : Session) :
    interpretAll b (trees ++ more) s =
      match interpretAll b trees s with
      | (.ok b, s) => interpretAll b more s
      | (.error e, s) => (.error e, s) := by
  induction trees generalizing b s with
  | nil => rfl
  | cons t rest ih =>
    rw [List.cons_append, interpretAll, interpretAll]
    rcases t.interpret s with ⟨_ | b', s'⟩
    · rfl
    · exact ih b' s'

theorem interpretAll_singleton (b : Binding) (t : Tree) (s : Session) :
    interpretAll b [t] s = t.interpret s := by
  rw [interpretAll]
  rcases t.interpret s with ⟨_ | b', s'⟩ <;> rfl

/-! ### A failed operand makes everything fail that is built on it -/

theorem interpretAll_error {b : Binding} {trees all : List Tree} {s s' : Session} {e : Error}
    (h : interpretAll b trees s = (.error e, s')) (front : trees <+: all) :
    interpretAll b all s = (.error e, s') := by
  obtain ⟨more, rfl⟩ := front
  rw [interpretAll_append, h]

theorem operated_error {op : Operator} {l : Level} {t u : Tree} {n : Nat} {c d : Cursor}
    {s s' : Session} {e : Error} (h : t.interpret s = (.error e, s'))
    (built : operated builder op l t n () c = .ok u () d) : u.interpret s = (.error e, s') := by
  unfold operated at built
  split at built
  · cases built
    rw [interpret, h]
  · obtain ⟨right, _, f, -, built⟩ := andThen_eq_ok.mp built
    cases built
    rw [interpret, h]

theorem chain_error {l : Level} {t u : Tree} {c d : Cursor} {s s' : Session} {e : Error}
    (h : t.interpret s = (.error e, s')) (built : chain builder l t () c = .ok u () d) :
    u.interpret s = (.error e, s') := by
  induction c using Cursor.induction generalizing t with
  | step c ih =>
    cases hx : c.atLevel? l with
    | none =>
      rw [chain_of_none builder hx] at built
      cases built
      exact h
    | some p =>
      have passed := Cursor.remaining_atLevel? hx
      have reached := remaining_operated builder p.1 l t c.offset () p.2
      rw [chain_of_some builder hx] at built
      obtain ⟨v, _, f, operated, built⟩ := andThen_eq_ok.mp built
      rw [operated] at reached
      exact ih f (Nat.lt_of_le_of_lt reached passed) (operated_error h operated) built

end Tree

/-! ### Results of the two runs -/

namespace Grammar

/-- What a run in a session ends in beside the run that builds trees, by what is built means: both
succeed, both find the same mistake in the text, or the session has refused a write and what is
built, if anything, comes to the same. -/
inductive Mirrors {β γ : Type} (means : γ → Except Error β × Session) :
    Result Session β → Result Unit γ → Prop
  | ok {b : β} {t : γ} {s : Session} {c : Cursor} :
    s.Sound → means t = (.ok b, s) → Mirrors means (.ok b s c) (.ok t () c)
  | syntactic (e : Error) (s : Session) (c : Cursor) :
    Mirrors means ⟨.error e, s, c⟩ ⟨.error e, (), c⟩
  | refused {e : Error} {s : Session} {c : Cursor} {q : Result Unit γ} :
    e.RefusesWrite → (∀ t d, q = .ok t () d → means t = (.error e, s)) →
    Mirrors means ⟨.error e, s, c⟩ q

namespace Mirrors

variable {β γ : Type} {means : γ → Except Error β × Session}

theorem andThen {β' γ' : Type} {means' : γ' → Except Error β' × Session}
    {r : Result Session β} {q : Result Unit γ} {f : β → Session → Cursor → Result Session β'}
    {g : γ → Unit → Cursor → Result Unit γ'} (h : Mirrors means r q)
    (next : ∀ b t s c, s.Sound → means t = (.ok b, s) → r.cursor = c →
      Mirrors means' (f b s c) (g t () c))
    (failed : ∀ e t s c u d, means t = (.error e, s) → g t () c = .ok u () d →
      means' u = (.error e, s)) : Mirrors means' (r.andThen f) (q.andThen g) := by
  cases h with
  | ok sound same => exact next _ _ _ _ sound same rfl
  | syntactic e s c => exact .syntactic e s c
  | @refused e s c q refuses built =>
    refine .refused refuses fun u f hu => ?_
    obtain ⟨t, _, d, rfl, hu⟩ := andThen_eq_ok.mp hu
    exact failed e t s d u f (built t d rfl) hu

variable {means : Tree → Except Error Binding × Session} {s : Session}

theorem applyAt {op : Operator} {n : Nat} {t : Tree} (vs : List Binding) (sound : s.Sound)
    (hl : vs.length = op.arity) (same : means t = s.applyAt op n vs) (c : Cursor) :
    Mirrors means (applyAt Session.actions op vs n s c) (.ok t () c) := by
  rw [applyAt_actions]
  by_cases hp : op.Permits (vs.map Binding.isVariable)
  · obtain ⟨b, m, applied, -⟩ := s.applyAt_of_permits vs hl hp n
    rw [applied] at same ⊢
    exact .ok sound same
  · have hw : writes op := by
      cases hw : writes op with
      | true => rfl
      | false => exact absurd (Operator.permits_of_not_writes hw _) hp
    rw [Session.applyAt_of_not_permits hl hp] at same ⊢
    refine .refused ⟨op, n, hw, rfl⟩ fun u d hu => ?_
    cases hu
    exact same

theorem updated {t : Tree} {b : Binding} (sound : s.Sound) (same : means t = (.ok b, s))
    (unary : ∀ op n, means (.unary op n t) = s.applyAt op n [b]) (c : Cursor) :
    Mirrors means (updated Session.actions b s c) (updated Tree.builder t () c) := by
  rw [updated_eq, updated_eq]
  cases hx : c.afterVariable? with
  | none => exact .ok sound same
  | some p =>
    have arity := Operator.arity_of_afterVariable (Cursor.afterVariable?_eq_some_iff.mp hx).1
    exact applyAt [b] sound arity.symm (unary p.1 c.offset) p.2

end Mirrors

end Grammar

namespace Tree

open Grammar

variable {s : Session}

theorem mirrors_atom (sound : s.Sound) (c : Cursor) :
    Mirrors (interpret · s) (atom Session.actions s c) (atom builder () c) := by
  rw [atom_eq, atom_eq]
  cases hx : c.take? .number with
  | some p =>
    obtain ⟨m, d⟩ := p
    cases hd : Decimal.read? m with
    | none =>
      simp only [Session.actions, builder, hd, Option.map_none]
      exact .syntactic _ _ _
    | some v =>
      simp only [Session.actions, builder, hd, Option.map_some]
      exact .ok sound (by rw [interpret, Decimal.valueOf, hd]; rfl)
  | none =>
    cases hy : c.take? .name with
    | none => exact .syntactic _ _ _
    | some p =>
      obtain ⟨m, d⟩ := p
      obtain ⟨same, kept⟩ := sound.lookup m
      have decides : builder.isVariable (name m) = Session.actions.isVariable (s.lookup m).1 := by
        refine Eq.trans ?_ same.symm
        cases hc : Environment.isConstant m <;> simp [builder, IsVariable, hc]
      show Mirrors _ (if Session.actions.isVariable (s.lookup m).1
        then updated Session.actions (s.lookup m).1 (s.lookup m).2 d
        else .ok (s.lookup m).1 (s.lookup m).2 d)
        (if builder.isVariable (name m) then updated builder (name m) () d else .ok (name m) () d)
      rw [decides]
      split
      · exact .updated kept (interpret_name m s) (fun op n => rfl) d
      · exact .ok kept (interpret_name m s)

theorem mirrors_operated {op : Operator} {l : Level} {t : Tree} {n : Nat} {b : Binding} {c : Cursor}
    {s₀ : Session} (sound : s.Sound) (same : t.interpret s₀ = (.ok b, s))
    (right : Mirrors (interpret · s) (rightOperand Session.actions op l s c)
      (rightOperand builder op l () c)) :
    Mirrors (interpret · s₀) (operated Session.actions op l b n s c) (operated builder op l t n () c) := by
  unfold operated
  split
  case isTrue arity => exact .applyAt [b] sound arity.symm (by rw [interpret, same]) c
  case isFalse arity =>
    refine right.andThen ?_ ?_
    · intro b' t' s' d sound' same' _
      have binary : op.arity = 2 := op.arity_eq.resolve_left arity
      exact .applyAt [b, b'] sound' binary.symm (by simp only [interpret, same, same']) d
    · intro e t' s' d u f failed built
      cases built
      simp only [interpret, same, failed]

/-- A rule that runs in a session does what the tree means that it builds. -/
theorem mirrors_rules : RuleInduction
    (fun l c => ∀ s : Session, s.Sound →
      Mirrors (interpret · s) (expression Session.actions l s c) (expression builder l () c))
    (fun l c => ∀ s : Session, s.Sound →
      Mirrors (interpret · s) (operand Session.actions l s c) (operand builder l () c))
    (fun l c => ∀ s₀ t b s, s.Sound → t.interpret s₀ = (.ok b, s) →
      Mirrors (interpret · s₀) (chain Session.actions l b s c) (chain builder l t () c))
    (fun c => ∀ s : Session, s.Sound →
      Mirrors (interpret · s) (term Session.actions s c) (term builder () c))
    (fun c => ∀ s : Session, s.Sound →
      Mirrors (interpret · s) (parenthesized Session.actions s c) (parenthesized builder () c)) where
  expression l c operand chain s sound := by
    rw [expression_eq, expression_eq]
    refine (operand s sound).andThen ?_ fun e t s' d u f => chain_error
    intro b t s' d sound' same reached
    exact chain d (reached ▸ remaining_operand Session.actions l s c) s t b s' sound' same
  operand l c expression term s sound := by
    rw [operand_eq, operand_eq]
    cases hl : l.next? with
    | some m => exact expression m hl s sound
    | none => exact term hl s sound
  chain l c called s₀ t b s sound same := by
    cases hx : c.atLevel? l with
    | none =>
      rw [chain_of_none _ hx, chain_of_none _ hx]
      exact .ok sound same
    | some p =>
      obtain ⟨op, d⟩ := p
      obtain ⟨expression, operand, chain⟩ := called op d hx
      have right : Mirrors (interpret · s) (rightOperand Session.actions op l s d)
          (rightOperand builder op l () d) := by
        unfold rightOperand
        split
        · exact expression s sound
        · exact operand s sound
      rw [chain_of_some _ hx, chain_of_some _ hx]
      refine (mirrors_operated sound same right).andThen ?_ fun e t s' d u f => chain_error
      intro b' t' s' e sound' same' reached
      exact chain e (reached ▸ remaining_operated Session.actions op l b c.offset s d) s₀ t' b' s'
        sound' same'
  term c term parenthesized s sound := by
    rw [term_eq, term_eq]
    cases hx : c.beforeOperand? with
    | none => exact parenthesized s sound
    | some p =>
      obtain ⟨op, d⟩ := p
      have arity := Operator.arity_of_beforeOperand (Cursor.beforeOperand?_eq_some_iff.mp hx).1
      refine (term op d hx s sound).andThen ?_ ?_
      · intro b t s' e sound' same _
        exact .applyAt [b] sound' arity.symm (by simp only [interpret, same]) e
      · intro e t s' d u f failed built
        cases built
        simp only [interpret, failed]
  parenthesized c expression s sound := by
    rw [parenthesized_eq, parenthesized_eq]
    cases hx : c.take? .openParen with
    | none => exact mirrors_atom sound c
    | some p =>
      refine (expression p.1 p.2 hx s sound).andThen ?_ ?_
      · intro b t s' d sound' same _
        cases hy : d.take? .closeParen with
        | none => exact .syntactic _ _ _
        | some q => exact .ok sound' same
      · intro e t s' d u f failed built
        cases hy : d.take? .closeParen with
        | none =>
          rw [hy] at built
          cases built
        | some q =>
          rw [hy] at built
          cases built
          exact failed

theorem mirrors_expression (sound : s.Sound) (l : Level) (c : Cursor) :
    Mirrors (interpret · s) (expression Session.actions l s c) (expression builder l () c) :=
  mirrors_rules.all.1 l c s sound

/-! ### Statements -/

theorem mirrors_moreStatements {s₀ : Session} {b₀ : Binding} {done : Statements Binding}
    {built : Statements Tree} {c : Cursor} (sound : s.Sound)
    (same : interpretAll b₀ built.inOrder s₀ = (.ok done.last, s)) :
    Mirrors (fun b : Statements Tree => interpretAll b₀ b.inOrder s₀)
      ((moreStatements Session.actions done s c).map Statements.last)
      (moreStatements builder built () c) := by
  induction c using Cursor.induction generalizing done built s with
  | step c ih =>
    rw [moreStatements_eq, moreStatements_eq]
    split
    · exact .ok sound same
    cases hx : c.take? .separator with
    | none => exact .syntactic _ _ _
    | some p =>
      have passed := Cursor.remaining_take? hx
      dsimp only
      split
      · exact .ok sound same
      rw [Result.map_andThen]
      refine (mirrors_expression sound .loosest p.2).andThen ?_ ?_
      · intro b t s' d sound' same' reached
        have behind := remaining_expression Session.actions .loosest s p.2
        refine ih d (by rw [← reached]; omega) sound' ?_
        simp only [Statements.inOrder_add, interpretAll_append, same, interpretAll_singleton, same']
        rfl
      · intro e t s' d u f failed later
        refine interpretAll_error ?_ (moreStatements_inOrder later)
        simp only [Statements.inOrder_add, interpretAll_append, same, interpretAll_singleton, failed]

theorem mirrors_statements (sound : s.Sound) (b₀ : Binding) (c : Cursor) :
    Mirrors (fun b : Statements Tree => interpretAll b₀ b.inOrder s)
      ((statements Session.actions s c).map Statements.last) (statements builder () c) := by
  unfold statements
  rw [Result.map_andThen]
  refine (mirrors_expression sound .loosest c).andThen ?_ ?_
  · intro b t s' d sound' same _
    exact mirrors_moreStatements sound' ((interpretAll_singleton b₀ t s).trans same)
  · intro e t s' d u f failed later
    exact interpretAll_error ((interpretAll_singleton b₀ t s).trans failed)
      (moreStatements_inOrder later)

/-- The builder fails at mistakes in the text and at nothing else. -/
theorem read_syntactic {source : Text} {e : Error} (h : read source = .error e) :
    e.fault.kind = .syntactic := by
  have faults := (statements_invariant (A := builder) (I := fun _ => True)
    (F := fun f => f.kind = .syntactic) (fun _ h => h) (fun _ _ _ => trivial)
    (fun op n operands s hl _ => ⟨trivial, fun f hf => by
      rcases Operator.eq_of_length hl with ⟨-, x, rfl⟩ | ⟨-, x, y, rfl⟩ <;> cases hf⟩)
    (s := ()) trivial (.start source)).2
  unfold read at h
  cases ho : (statements builder () (.start source)).outcome with
  | ok b =>
    rw [ho] at h
    cases h
  | error f =>
    rw [ho] at h
    obtain rfl : f = e := Except.error.inj h
    exact faults f ho

end Tree

/-- What a text that is read into trees comes to when they are interpreted, and a refused write or
the same mistake for any other text. -/
theorem Session.evaluate_refines_read {s : Session} (reached : s.Reachable) (source : Text) :
    match Tree.read source with
    | .ok trees => trees ≠ [] ∧ s.evaluate source = s.run trees ∧
        ∀ e, (s.run trees).1 = .error e → e.RefusesWrite
    | .error e => e.fault.kind = .syntactic ∧
        ∃ f, (s.evaluate source).1 = .error f ∧ (f = e ∨ f.RefusesWrite) := by
  have mirrors := Tree.mirrors_statements reached.sound (.fixed notANumber) (.start source)
  have syntactic := @Tree.read_syntactic source
  generalize hr : (Grammar.statements actions s (.start source)).map Grammar.Statements.last = r
    at mirrors
  rw [evaluate_eq, show s.result source = (r.outcome, r.state) from hr ▸ rfl]
  unfold run
  unfold Tree.read at syntactic ⊢
  generalize Grammar.statements Tree.builder () (.start source) = q at mirrors syntactic ⊢
  have built (ts : Grammar.Statements Tree) : ts.inOrder ≠ [] := by
    simp [Grammar.Statements.inOrder]
  cases mirrors with
  | @ok b ts s' c sound same =>
    refine ⟨built ts, congrArg valued same.symm, fun e he => ?_⟩
    have failed : (Tree.interpretAll _ ts.inOrder s).1 = .error e := valued_eq_error he
    rw [same] at failed
    cases failed
  | syntactic e s' c => exact ⟨syntactic rfl, e, rfl, .inl rfl⟩
  | @refused e s' c q refuses same =>
    obtain ⟨_ | ts, x, d⟩ := q
    · exact ⟨syntactic rfl, e, rfl, .inr refuses⟩
    · have same := same ts d rfl
      refine ⟨built ts, congrArg valued same.symm, fun f hf => ?_⟩
      have failed : (Tree.interpretAll _ ts.inOrder s).1 = .error f := valued_eq_error hf
      rw [same] at failed
      cases failed
      exact refuses

/-- The left operand is read after the right one has written to it. -/
theorem Session.evaluate_refines_read_late :
    Session.initial.Reachable ∧
    match Tree.read "x + (x = 5)".toList with
    | .ok trees => trees ≠ [] ∧
        Session.initial.evaluate "x + (x = 5)".toList = Session.initial.run trees ∧
        ∀ e, (Session.initial.run trees).1 = .error e → e.RefusesWrite
    | .error e => e.fault.kind = .syntactic ∧
        ∃ f, (Session.initial.evaluate "x + (x = 5)".toList).1 = .error f ∧
          (f = e ∨ f.RefusesWrite) :=
  ⟨.initial, Session.evaluate_refines_read .initial _⟩

end Calculator
